import CryptoTrading.Lib.Text
import CryptoTrading.Reconciliation.Engine

/-!
# Who lifts a pause

`ProtectionManager` has one pause flag.  Operators, `reconcile_all` and `clear_discrepancies` of
`src/trading/reconciliation/exchange_reconciliation_engine.py` all write it, and it does not
remember who set it.

Calls of the engine run in threads of their own.  Each reads and writes what is shared one access
at a time, and in between others go on: a check may decide to resume before an operator pauses, and
resume afterwards.  A call that is left alone does what `reconcileExchange` does
(`reconcileExchange_alone`).

A pause of an operator lasts until a call that has decided to resume does so
(`paused_until_lifted`), be the pause its own or not.
-/

namespace CryptoTrading.Reconciliation

open CryptoTrading.Lib ExchangeReconciliationEngine

/-! ## §1 Calls, access by access -/

/-- What a call does after it has resumed trading, or has found that it need not. -/
inductive Origin where
  /-- `reconcile_all`, with the exchanges that are left. -/
  | cycle (rest : List String)
  /-- `clear_discrepancies`, which returns. -/
  | clear
  deriving DecidableEq

/-- Where a call has got to. -/
inductive Call where
  /-- `reconcile_all` before the next exchange; it returns when none is left. -/
  | reconciling (exchanges : List String)
  /-- `reconcile_all` between the active discrepancies and the policy actions. -/
  | deciding (report : ReconciliationReport) (rest : List String)
  /-- `clear_discrepancies` before it does anything. -/
  | clearing
  /-- Before `is_paused` is read. -/
  | reading (origin : Origin)
  /-- Before `resume_trading`. -/
  | resuming (origin : Origin)
  deriving DecidableEq

def Call.returned : Call := .reconciling []

/-- Where a call goes on. -/
def Origin.next : Origin → Call
  | .cycle rest => .reconciling rest
  | .clear => .returned

/-- The engine and the calls made so far. -/
structure Threads where
  engine : ExchangeReconciliationEngine
  calls : List Call
  deriving DecidableEq

inductive Action where
  /-- `pause_trading` and `resume_trading` by an operator. -/
  | operatorPause
  | operatorResume
  /-- A call of `reconcile_all`, with the exchanges in the order of their set. -/
  | reconcileAll (exchanges : List String)
  /-- A call of `clear_discrepancies`. -/
  | clearDiscrepancies
  /-- The next access of a call; the outcomes are those of the reconcilers, where it runs them. -/
  | advance (call : ℕ) (outcomes : List Outcome)
  deriving DecidableEq

variable (upper : String → String)

/-- The next access of a call: a check of an exchange, the decision on its report, a reset of the
    discrepancies, or the setting of the flag. -/
def Call.advance (e : ExchangeReconciliationEngine) (outcomes : List Outcome) :
    Call → ExchangeReconciliationEngine × Call
  | .reconciling [] => (e, .returned)
  | .reconciling (exchange :: rest) =>
    let report := reportOf upper ⟨exchange, outcomes⟩
    (e.takeReport upper report, .deciding report rest)
  | .deciding report rest =>
    if report.hasCritical then
      if e.autoPauseOnCritical then
        ({ e with protectionManager := e.protectionManager.map ProtectionManager.pauseTrading },
          .reconciling rest)
      else (e, .reconciling rest)
    else if !e.hasCriticalDiscrepancy upper none none then
      if e.autoPauseOnCritical && e.protectionManager.isSome then (e, .reading (.cycle rest))
      else (e, .reconciling rest)
    else (e, .reconciling rest)
  | .clearing =>
    ({ e with activeDiscrepancies := [] },
      if e.protectionManager.isSome then .reading .clear else .returned)
  | .reading origin => (e, if e.isPaused then .resuming origin else origin.next)
  | .resuming origin =>
    ({ e with protectionManager := e.protectionManager.map ProtectionManager.resumeTrading },
      origin.next)

def Threads.step (s : Threads) : Action → Threads
  | .operatorPause =>
    { s with engine.protectionManager :=
        s.engine.protectionManager.map ProtectionManager.pauseTrading }
  | .operatorResume =>
    { s with engine.protectionManager :=
        s.engine.protectionManager.map ProtectionManager.resumeTrading }
  | .reconcileAll exchanges => { s with calls := s.calls ++ [.reconciling exchanges] }
  | .clearDiscrepancies => { s with calls := s.calls ++ [.clearing] }
  | .advance i outcomes =>
    match s.calls[i]? with
    | some call =>
      let (engine, call) := call.advance upper s.engine outcomes
      ⟨engine, s.calls.set i call⟩
    | none => s

/-- Trading is paused. -/
def Threads.isPaused (s : Threads) : Bool := s.engine.isPaused

/-- `clear_discrepancies`, when nothing comes in between. -/
def ExchangeReconciliationEngine.clearDiscrepancies (e : ExchangeReconciliationEngine) :
    ExchangeReconciliationEngine :=
  { e with
    activeDiscrepancies := []
    protectionManager := e.protectionManager.map ProtectionManager.resumeTrading }

/-! ## §2 A call that is left alone -/

section Alone

variable {upper} {s : Threads} {i : ℕ}

theorem step_advance {call : Call} (h : s.calls[i]? = some call) (outcomes : List Outcome) :
    s.step upper (.advance i outcomes) =
      ⟨(call.advance upper s.engine outcomes).1,
        s.calls.set i (call.advance upper s.engine outcomes).2⟩ := by
  simp only [Threads.step, h]

/-- Resuming where nothing is paused changes nothing. -/
theorem resume_of_not_paused {e : ExchangeReconciliationEngine} (h : e.isPaused = false) :
    { e with protectionManager := e.protectionManager.map ProtectionManager.resumeTrading } =
      e := by
  obtain ⟨active, manager, auto⟩ := e
  cases manager with
  | none => rfl
  | some pm =>
    have hflag : pm.isPaused = false := by simpa [isPaused] using h
    simp only [Option.map_some, ProtectionManager.resumeTrading]
    rw [← hflag]

/-- The same, where the call was the last one to go on. -/
theorem step_advance_set {e : ExchangeReconciliationEngine} {calls : List Call} {i : ℕ}
    (hi : i < calls.length) (call : Call) (outcomes : List Outcome) :
    Threads.step upper ⟨e, calls.set i call⟩ (.advance i outcomes) =
      ⟨(call.advance upper e outcomes).1,
        calls.set i (call.advance upper e outcomes).2⟩ := by
  rw [step_advance (List.getElem?_set_self hi), List.set_set]

variable (upper) in
/-- From reading the flag on, a call that is left alone resumes trading and goes on. -/
theorem resume_alone (e : ExchangeReconciliationEngine) {calls : List Call} {i : ℕ}
    (hi : i < calls.length) (origin : Origin) (outcomes : List Outcome) :
    ∃ n, run (Threads.step upper) ⟨e, calls.set i (.reading origin)⟩
        (List.replicate n (.advance i outcomes)) =
      ⟨{ e with protectionManager :=
          e.protectionManager.map ProtectionManager.resumeTrading },
        calls.set i origin.next⟩ := by
  by_cases hpaused : e.isPaused = true
  · refine ⟨2, ?_⟩
    rw [List.replicate_succ, run_cons, step_advance_set hi]
    simp only [Call.advance, if_pos hpaused]
    rw [List.replicate_one, run_cons, step_advance_set hi]
    rfl
  · refine ⟨1, ?_⟩
    rw [List.replicate_one, run_cons, step_advance_set hi,
      resume_of_not_paused (Bool.not_eq_true _ ▸ hpaused)]
    simp only [Call.advance, if_neg hpaused, run_nil]

variable (upper) in
/-- From its decision on, a check that is left alone applies the policy. -/
theorem applyPolicy_alone (e : ExchangeReconciliationEngine) {calls : List Call} {i : ℕ}
    (hi : i < calls.length) (report : ReconciliationReport) (rest : List String)
    (outcomes : List Outcome) :
    ∃ n, run (Threads.step upper) ⟨e, calls.set i (.deciding report rest)⟩
        (List.replicate n (.advance i outcomes)) =
      ⟨e.applyPolicy upper report, calls.set i (.reconciling rest)⟩ := by
  have hone : (Call.deciding report rest).advance upper e outcomes =
      (e.applyPolicy upper report, .reconciling rest) →
      ∃ n, run (Threads.step upper) ⟨e, calls.set i (.deciding report rest)⟩
        (List.replicate n (.advance i outcomes)) =
      ⟨e.applyPolicy upper report, calls.set i (.reconciling rest)⟩ := by
    intro hstep
    refine ⟨1, ?_⟩
    rw [List.replicate_one, run_cons, step_advance_set hi, hstep]
    rfl
  by_cases hcritical : report.hasCritical = true
  · by_cases hauto : e.autoPauseOnCritical = true
    · exact hone (by simp only [Call.advance, applyPolicy, if_pos hcritical, if_pos hauto])
    · exact hone (by simp only [Call.advance, applyPolicy, if_pos hcritical, if_neg hauto])
  by_cases hclean : (!e.hasCriticalDiscrepancy upper none none) = true
  · by_cases hauto : e.autoPauseOnCritical = true
    · by_cases hmanager : e.protectionManager = none
      · refine hone ?_
        simp only [Call.advance, applyPolicy, if_neg hcritical, if_pos hclean, if_pos hauto,
          hmanager, Option.isSome_none, Bool.and_false, Bool.false_eq_true, if_false,
          Option.map_none]
        rw [← hmanager]
      · -- the check reads the flag and resumes in accesses of their own
        have hresumes : (e.autoPauseOnCritical && e.protectionManager.isSome) = true := by
          rw [hauto, Bool.true_and]
          exact Option.isSome_iff_ne_none.mpr hmanager
        obtain ⟨n, hn⟩ := resume_alone upper e hi (.cycle rest) outcomes
        refine ⟨n + 1, ?_⟩
        rw [List.replicate_succ, run_cons, step_advance_set hi]
        simp only [Call.advance, if_neg hcritical, if_pos hclean, if_pos hresumes]
        rw [hn]
        simp only [applyPolicy, if_neg hcritical, if_pos hclean, if_pos hauto]
        rfl
    · exact hone (by simp only [Call.advance, applyPolicy, if_neg hcritical, if_pos hclean,
        hauto, Bool.false_and, Bool.false_eq_true, if_false])
  · exact hone (by simp only [Call.advance, applyPolicy, if_neg hcritical, if_neg hclean])

/-- **A check that is left alone** is that of `reconcileExchange`. -/
theorem reconcileExchange_alone {exchange : String} {rest : List String}
    (h : s.calls[i]? = some (.reconciling (exchange :: rest))) (outcomes : List Outcome) :
    ∃ n, run (Threads.step upper) s (List.replicate n (.advance i outcomes)) =
      ⟨s.engine.reconcileExchange upper ⟨exchange, outcomes⟩,
        s.calls.set i (.reconciling rest)⟩ := by
  have hi : i < s.calls.length := (List.getElem?_eq_some_iff.mp h).1
  obtain ⟨n, hn⟩ := applyPolicy_alone upper (s.engine.takeReport upper
    (reportOf upper ⟨exchange, outcomes⟩)) hi (reportOf upper ⟨exchange, outcomes⟩) rest outcomes
  refine ⟨n + 1, ?_⟩
  rw [List.replicate_succ, run_cons, step_advance h]
  exact hn

/-- A clearing call that is left alone clears and resumes. -/
theorem clearDiscrepancies_alone (h : s.calls[i]? = some .clearing) (outcomes : List Outcome) :
    ∃ n, run (Threads.step upper) s (List.replicate n (.advance i outcomes)) =
      ⟨s.engine.clearDiscrepancies, s.calls.set i .returned⟩ := by
  have hi : i < s.calls.length := (List.getElem?_eq_some_iff.mp h).1
  by_cases hmanager : s.engine.protectionManager.isSome = true
  · obtain ⟨n, hn⟩ := resume_alone upper
      { s.engine with activeDiscrepancies := [] } hi .clear outcomes
    refine ⟨n + 1, ?_⟩
    rw [List.replicate_succ, run_cons, step_advance h]
    simp only [Call.advance, if_pos hmanager]
    exact hn
  · refine ⟨1, ?_⟩
    rw [List.replicate_one, run_cons, step_advance h]
    simp only [Call.advance, if_neg hmanager, run_nil, clearDiscrepancies]
    rw [Option.isSome_iff_ne_none, not_not] at hmanager
    rw [hmanager]
    rfl

end Alone

/-! ## §3 What lifts a pause -/

/-- The action is the resuming access of a call. -/
def Threads.Lifts (s : Threads) (a : Action) : Prop :=
  ∃ i outcomes origin, a = .advance i outcomes ∧ s.calls[i]? = some (.resuming origin)

variable {upper} {start : Threads}

/-- **A pause is lifted by an operator or by a resuming access**, and by nothing else. -/
theorem isPaused_step {s : Threads} (hpaused : s.isPaused = true) {a : Action}
    (hoperator : a ≠ .operatorResume) :
    (s.step upper a).isPaused = true ↔ ¬ s.Lifts a := by
  obtain ⟨pm, hpm, hflag⟩ : ∃ pm, s.engine.protectionManager = some pm ∧ pm.isPaused = true := by
    simpa [Threads.isPaused, isPaused, Option.any_eq_true] using hpaused
  have hkept : ∀ {calls}, (Threads.mk s.engine calls).isPaused = true := fun {_} => hpaused
  cases a with
  | operatorPause =>
    -- paused twice is paused
    refine iff_of_true ?_ (by rintro ⟨_, _, _, ⟨⟩, -⟩)
    simp [Threads.step, Threads.isPaused, isPaused, hpm, ProtectionManager.pauseTrading]
  | operatorResume => exact absurd rfl hoperator
  -- a call that begins has not accessed anything yet
  | reconcileAll exchanges => exact iff_of_true hkept (by rintro ⟨_, _, _, ⟨⟩, -⟩)
  | clearDiscrepancies => exact iff_of_true hkept (by rintro ⟨_, _, _, ⟨⟩, -⟩)
  | advance i outcomes =>
    -- the next access of a call, which resumes in one of its phases only
    cases hcall : s.calls[i]? with
    | none =>
      refine iff_of_true ?_ ?_
      · simp only [Threads.step, hcall]
        exact hpaused
      · rintro ⟨_, _, _, ⟨rfl, rfl⟩, h⟩
        rw [hcall] at h
        cases h
    | some call =>
      rw [step_advance hcall]
      by_cases hresuming : ∃ origin, call = .resuming origin
      · obtain ⟨origin, rfl⟩ := hresuming
        refine iff_of_false ?_ (not_not.mpr ⟨i, outcomes, origin, rfl, hcall⟩)
        simp [Call.advance, Threads.isPaused, isPaused, hpm, ProtectionManager.resumeTrading]
      · refine iff_of_true ?_ ?_
        · -- all other accesses leave the flag alone, or set it
          simp only [Threads.isPaused, isPaused] at hpaused ⊢
          cases call with
          | reconciling exchanges =>
            cases exchanges with
            | nil => exact hpaused
            | cons exchange rest => exact hpaused
          | deciding report rest =>
            simp only [Call.advance]
            split
            · split
              · simp [hpm, ProtectionManager.pauseTrading]
              · exact hpaused
            · split
              · split <;> exact hpaused
              · exact hpaused
          | clearing => exact hpaused
          | reading origin => exact hpaused
          | resuming origin => exact absurd ⟨origin, rfl⟩ hresuming
        · rintro ⟨_, _, origin, ⟨rfl, rfl⟩, h⟩
          rw [hcall] at h
          exact hresuming ⟨origin, Option.some.inj h⟩

variable (upper start) in
/-- The call has been a check that decided to resume: its report had nothing critical, nothing
    critical was active on any exchange, and the engine pauses and resumes by itself. -/
def DecidedClean (as : List Action) (i : ℕ) : Prop :=
  ∃ before outcomes report rest, before ++ [Action.advance i outcomes] <+: as ∧
    let s := run (Threads.step upper) start before
    s.calls[i]? = some (.deciding report rest) ∧ report.hasCritical = false ∧
      (¬ ∃ d ∈ s.engine.activeDiscrepancies, d.isCritical = true) ∧
      s.engine.autoPauseOnCritical = true

variable (upper start) in
/-- The call is one of `clear_discrepancies`. -/
def CallsClear (as : List Action) (i : ℕ) : Prop :=
  ∃ before, before ++ [Action.clearDiscrepancies] <+: as ∧
    (run (Threads.step upper) start before).calls.length = i

variable (upper start) in
/-- What brought a call to where it is. -/
def Grounds (as : List Action) (i : ℕ) : Call → Prop
  | .clearing => CallsClear upper start as i
  | .reading .clear => CallsClear upper start as i
  | .resuming .clear => CallsClear upper start as i
  | .reading (.cycle _) => DecidedClean upper start as i
  | .resuming (.cycle _) => DecidedClean upper start as i
  | .reconciling _ => True
  | .deciding _ _ => True

theorem Grounds.append {as : List Action} {i : ℕ} {call : Call}
    (h : Grounds upper start as i call) (a : Action) :
    Grounds upper start (as ++ [a]) i call := by
  have hclear : CallsClear upper start as i → CallsClear upper start (as ++ [a]) i := by
    rintro ⟨before, hprefix, hi⟩
    exact ⟨before, hprefix.trans (List.prefix_append _ _), hi⟩
  have hclean : DecidedClean upper start as i → DecidedClean upper start (as ++ [a]) i := by
    rintro ⟨before, outcomes, report, rest, hprefix, hdecided⟩
    exact ⟨before, outcomes, report, rest, hprefix.trans (List.prefix_append _ _), hdecided⟩
  cases call with
  | reconciling exchanges => trivial
  | deciding report rest => trivial
  | clearing => exact hclear h
  | reading origin =>
    cases origin with
    | clear => exact hclear h
    | cycle rest => exact hclean h
  | resuming origin =>
    cases origin with
    | clear => exact hclear h
    | cycle rest => exact hclean h

/-- One access of a call has the grounds of the next one. -/
theorem grounds_advance {as : List Action} {i : ℕ} {call : Call}
    (hcall : (run (Threads.step upper) start as).calls[i]? = some call)
    (h : Grounds upper start as i call) (outcomes : List Outcome) :
    Grounds upper start (as ++ [.advance i outcomes]) i
      (call.advance upper (run (Threads.step upper) start as).engine outcomes).2 := by
  have happend := h.append (.advance i outcomes)
  have hnext : ∀ origin : Origin,
      Grounds upper start (as ++ [.advance i outcomes]) i origin.next := by
    intro origin
    cases origin <;> trivial
  -- the grounds of a call are laid where it decides, and are kept while others run
  cases call with
  | reconciling exchanges =>
    cases exchanges with
    | nil => trivial
    | cons exchange rest => trivial
  | deciding report rest =>
    simp only [Call.advance]
    split
    · split <;> trivial
    · rename_i hcritical
      split
      · rename_i hactive
        split
        · rename_i hresumes
          refine ⟨as, outcomes, report, rest, List.prefix_rfl, hcall, by simpa using hcritical,
            ?_, (Bool.and_eq_true _ _ ▸ hresumes).1⟩
          rw [← @hasCriticalDiscrepancy_none_iff upper]
          simpa using hactive
        · trivial
      · trivial
  | clearing =>
    simp only [Call.advance]
    split
    · exact happend
    · trivial
  | reading origin =>
    simp only [Call.advance]
    split
    · cases origin <;> exact happend
    · exact hnext origin
  | resuming origin => exact hnext origin

/-- A call after a new one is made: an old one, or the new one. -/
theorem call_of_append {calls : List Call} {new call : Call} {i : ℕ}
    (h : (calls ++ [new])[i]? = some call) :
    calls[i]? = some call ∨ calls.length = i ∧ new = call := by
  rcases lt_or_ge i calls.length with hlt | hge
  · rw [List.getElem?_append_left hlt] at h
    exact .inl h
  · rw [List.getElem?_append_right hge] at h
    obtain ⟨hi, hcall⟩ := List.getElem?_eq_some_iff.mp h
    rw [List.length_singleton] at hi
    exact .inr ⟨by omega, by simpa using hcall⟩

/-- **Every call has grounds for where it is**, in every run from a state without calls. -/
theorem grounds_run (hstart : start.calls = []) (as : List Action) :
    ∀ i call, (run (Threads.step upper) start as).calls[i]? = some call →
      Grounds upper start as i call := by
  -- along the run: an action begins a call, or advances one, and the others keep their grounds
  induction as using List.reverseRecOn with
  | nil =>
    intro i call hcall
    rw [run_nil, hstart] at hcall
    cases hcall
  | append_singleton as a ih =>
    intro i call hcall
    rw [run_append, run_cons, run_nil] at hcall
    cases a with
    | operatorPause => exact (ih i call hcall).append _
    | operatorResume => exact (ih i call hcall).append _
    | reconcileAll exchanges =>
      rcases call_of_append hcall with hold | ⟨-, rfl⟩
      · exact (ih i call hold).append _
      · trivial
    | clearDiscrepancies =>
      rcases call_of_append hcall with hold | ⟨hi, rfl⟩
      · exact (ih i call hold).append _
      · exact ⟨as, List.prefix_rfl, hi⟩
    | advance j outcomes =>
      cases hj : (run (Threads.step upper) start as).calls[j]? with
      | none =>
        simp only [Threads.step, hj] at hcall
        exact (ih i call hcall).append _
      | some before =>
        rw [step_advance hj] at hcall
        by_cases hij : j = i
        · subst hij
          rw [List.getElem?_set_self (List.getElem?_eq_some_iff.mp hj).1] at hcall
          obtain rfl := Option.some.inj hcall
          exact grounds_advance hj (ih j before hj) outcomes
        · rw [List.getElem?_set_ne hij] at hcall
          exact (ih i call hcall).append _

theorem isSome_protectionManager_step (s : Threads) (a : Action) :
    (s.step upper a).engine.protectionManager.isSome = s.engine.protectionManager.isSome := by
  cases a with
  | operatorPause => exact Option.isSome_map
  | operatorResume => exact Option.isSome_map
  | reconcileAll exchanges => rfl
  | clearDiscrepancies => rfl
  | advance i outcomes =>
    cases hcall : s.calls[i]? with
    | none => simp only [Threads.step, hcall]
    | some call =>
      rw [step_advance hcall]
      cases call with
      | reconciling exchanges => cases exchanges <;> rfl
      | deciding report rest =>
        simp only [Call.advance]
        split
        · split
          · exact Option.isSome_map
          · rfl
        · split
          · split <;> rfl
          · rfl
      | clearing => rfl
      | reading origin => rfl
      | resuming origin => exact Option.isSome_map

/-- From a pause on, trading stays paused as long as no call resumes it. -/
theorem paused_iff_along {s : Threads} (hpaused : s.isPaused = true) {bs : List Action}
    (hoperator : Action.operatorResume ∉ bs) :
    (∀ cs, cs <+: bs → (run (Threads.step upper) s cs).isPaused = true) ↔
      Along (Threads.step upper) (fun s a => ¬ s.Lifts a) s bs := by
  refine (forall_prefix_iff_along (Q := fun s : Threads => s.isPaused = true)).trans ?_
  rw [and_iff_right hpaused]
  induction bs generalizing s with
  | nil => exact Iff.rfl
  | cons a rest ih =>
    obtain ⟨hne, hrest⟩ := not_or.mp (fun h => hoperator (List.mem_cons.mpr h))
    have hstep : (s.step upper a).isPaused = true ↔ ¬ s.Lifts a :=
      isPaused_step hpaused (Ne.symm hne)
    constructor
    · intro h
      exact ⟨hstep.mp h.1, (ih h.1 hrest).mp h.2⟩
    · intro h
      have hstill := hstep.mpr h.1
      exact ⟨hstill, (ih hstill hrest).mpr h.2⟩

/-- **An operator's pause lasts until an operator resumes or a call of the engine does.**  Such a
    call is one of `clear_discrepancies`, or a check that found nothing critical anywhere. -/
theorem paused_until_lifted (upper : String → String) {start : Threads}
    (hstart : start.calls = []) (hmanager : start.engine.protectionManager.isSome = true)
    (as bs : List Action) (hoperator : Action.operatorResume ∉ bs) :
    let paused := run (Threads.step upper) start (as ++ [.operatorPause])
    ((∀ cs, cs <+: bs → (run (Threads.step upper) paused cs).isPaused = true) ↔
        Along (Threads.step upper) (fun s a => ¬ s.Lifts a) paused bs) ∧
      ∀ cs, cs <+: bs → ∀ a, (run (Threads.step upper) paused cs).Lifts a →
        ∃ i outcomes, a = .advance i outcomes ∧
          (CallsClear upper start (as ++ .operatorPause :: cs) i ∨
            DecidedClean upper start (as ++ .operatorPause :: cs) i) := by
  intro paused
  have hpaused : paused.isPaused = true := by
    have hsome : (run (Threads.step upper) start as).engine.protectionManager.isSome = true :=
      run_invariant (fun s => s.engine.protectionManager.isSome = true)
      (fun s a h => (isSome_protectionManager_step s a).trans h) hmanager as
    obtain ⟨pm, hpm⟩ := Option.isSome_iff_exists.mp hsome
    simp only [paused, run_append, run_cons, run_nil, Threads.step, Threads.isPaused, isPaused,
      hpm]
    rfl
  refine ⟨paused_iff_along hpaused hoperator, ?_⟩
  -- what lifts a pause is a resumption, and a call that resumes has grounds for it
  rintro cs - a ⟨i, outcomes, origin, rfl, hcall⟩
  have hrun : run (Threads.step upper) paused cs =
      run (Threads.step upper) start (as ++ .operatorPause :: cs) := by
    simp only [paused, run_append, run_cons, run_nil]
  rw [hrun] at hcall
  have hgrounds := grounds_run hstart _ i _ hcall
  refine ⟨i, outcomes, rfl, ?_⟩
  cases origin with
  | clear => exact .inl hgrounds
  | cycle rest => exact .inr hgrounds

/-- An engine with nothing to report, and no call made. -/
def quietThreads : Threads :=
  ⟨ExchangeReconciliationEngine.new (some ⟨false, []⟩) true, []⟩

/-- A check that decided before the pause lifts it. -/
theorem paused_until_lifted_stale_check :
    let as := [Action.operatorPause, .reconcileAll ["BINANCE"], .advance 0 [], .advance 0 [],
      .advance 0 []]
    let paused := run (Threads.step Lib.upper) quietThreads (as ++ [.operatorPause])
    paused.isPaused = true ∧
      ∃ i outcomes, Action.advance 0 [] = .advance i outcomes ∧
        (CallsClear Lib.upper quietThreads (as ++ [.operatorPause]) i ∨
          DecidedClean Lib.upper quietThreads (as ++ [.operatorPause]) i) := by
  intro as paused
  have hspec := @paused_until_lifted Lib.upper quietThreads rfl rfl as
    [.advance 0 []] (by decide)
  refine ⟨by decide +kernel, ?_⟩
  exact hspec.2 [] List.nil_prefix (.advance 0 []) ⟨0, [], .cycle [], rfl, by decide +kernel⟩

/-- A clean check lifts a pause that an operator has just set, and so does clearing. -/
theorem operatorPause_lifted :
    (run (Threads.step Lib.upper) quietThreads
        [.operatorPause, .reconcileAll ["BINANCE"], .advance 0 [], .advance 0 [], .advance 0 [],
          .advance 0 []]).isPaused = false ∧
      (run (Threads.step Lib.upper) quietThreads
        [.operatorPause, .clearDiscrepancies, .advance 0 [], .advance 0 [],
          .advance 0 []]).isPaused = false := by
  decide +kernel

end CryptoTrading.Reconciliation

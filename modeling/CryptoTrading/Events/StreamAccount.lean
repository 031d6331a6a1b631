import CryptoTrading.Events.MessageSubscription
import Mathlib.Algebra.GroupWithZero.Nat
import Mathlib.Order.Lattice

/-!
# What an event stream loses, and what it says about it

Over every interleaving of any number of publishers, the pump and `close`: what the client gets is
in the order in which it was put on the queue; every event offered is in one place; and the drops
that the stream counts bound what it has lost.  A `put` that finds the queue full counts once, but
may lose two events, the oldest one and, when others fill the queue again before its second try,
its own.
-/

namespace CryptoTrading.Events

open CryptoTrading.Lib

variable {E : Type}

/-! ## §1 What is counted -/

/-- The event of a frame. -/
def Frame.event? : Frame E → Option E
  | .event e => some e
  | _ => none

/-- The drops that a frame reports. -/
def Frame.dropped : Frame E → ℕ
  | .streamStatus dropped => dropped
  | _ => 0

/-- The frame that the pump has in hand. -/
def PumpStage.inHand : PumpStage E → List (Frame E)
  | .sending frame => [frame]
  | .ended (some frame) => [frame]
  | _ => []

namespace Stream

/-- The frames that the pump has made. -/
def frames (s : Stream E) : List (Frame E) := s.received ++ s.pump.inHand

/-- The events that the pump has taken. -/
def taken (s : Stream E) : List E := s.frames.filterMap Frame.event?

/-- The drops that were counted, reported or not. -/
def counted (s : Stream E) : ℕ := s.subscription.dropped + (s.frames.map Frame.dropped).sum

/-- The number of calls that are at a stage. -/
def callsAt (s : Stream E) (stage : PutStage) : ℕ := s.calls.countP fun c => c.2 = stage

/-- One, once `close` may have dropped an event, which it does not count. -/
def droppedByClose (s : Stream E) : ℕ :=
  match s.closing with
  | none => if s.subscription.closed then 1 else 0
  | some .offer => 0
  | some .evict => 0
  | some _ => 1

/-- The books of a stream.

    - The line: what was taken, what was dropped and what waits, in the order in which it was
      queued.
    - Each event offered was queued, was left by its call, or is in the hands of a call.
    - What was dropped is counted, but for the calls that are about to count it and for `close`.
    - What was left by its call was counted before, when the call dropped another event. -/
structure Accounted (s : Stream E) : Prop where
  line : Line s.enqueued s.taken s.evicted s.subscription.waiting
  offered : s.offered.Perm (s.enqueued ++ s.rejected ++ s.calls.map Prod.fst)
  evicted : s.evicted.length ≤ s.counted + s.callsAt .count + s.droppedByClose
  rejected : s.rejected.length + s.callsAt .retry ≤ s.counted
  closed : s.closing ≠ none → s.subscription.closed = true

theorem accounted_start (maxSize : ℕ) : (start maxSize : Stream E).Accounted where
  line := Line.start
  offered := List.Perm.refl _
  evicted := Nat.zero_le _
  rejected := Nat.zero_le _
  closed := fun h => absurd rfl h

/-! ## §2 The queue -/

section Queue

variable {sub sub' : MessageSubscription E}

theorem putNowait_eq_some {entry : Option E} (h : sub.putNowait entry = some sub') :
    sub' = { sub with queue := sub.queue ++ [entry] } := by
  unfold MessageSubscription.putNowait at h
  split at h
  · cases h
  · exact (Option.some.inj h).symm

@[simp] theorem waiting_put (entry : Option E) :
    ({ sub with queue := sub.queue ++ [entry] } : MessageSubscription E).waiting =
      sub.waiting ++ entry.toList := by
  cases entry <;> simp [MessageSubscription.waiting]

/-- Dropping the oldest entry skips at most one event of the line. -/
theorem Line.dropOldest {joined taken skipped : List E}
    (h : Line joined taken skipped sub.waiting) :
    Line joined taken (skipped ++ (sub.queue.take 1).filterMap id) sub.dropOldest.waiting := by
  unfold MessageSubscription.waiting MessageSubscription.dropOldest at *
  cases hqueue : sub.queue with
  | nil => simpa [hqueue] using h
  | cons entry rest =>
    rw [hqueue] at h
    cases entry with
    | none => simpa using h
    | some e =>
      have hskip : Line joined taken (skipped ++ [e]) (rest.filterMap id) :=
        Line.skip (by simpa using h)
      simpa using hskip

theorem length_oldest_le (queue : List (Option E)) :
    ((queue.take 1).filterMap id).length ≤ 1 :=
  (List.length_filterMap_le _ _).trans (List.length_take_le _ _)

end Queue

/-! ## §3 The calls -/

section Calls

variable {calls : List (E × PutStage)} {call : ℕ} {e : E} {stage : PutStage}

/-- A call under way stands between others; it moves on, or ends. -/
theorem exists_call (h : calls[call]? = some (e, stage)) :
    ∃ before after, calls = before ++ (e, stage) :: after ∧
      calls.eraseIdx call = before ++ after ∧
      ∀ c, calls.set call c = before ++ c :: after := by
  obtain ⟨hlt, hget⟩ := List.getElem?_eq_some_iff.mp h
  refine ⟨calls.take call, calls.drop (call + 1), ?_, List.eraseIdx_eq_take_drop_succ _ _, ?_⟩
  · rw [← hget, List.getElem_cons_drop, List.take_append_drop]
  · intro c
    rw [List.set_eq_take_append_cons_drop, if_pos hlt]

theorem countP_set_call (h : calls[call]? = some (e, stage)) (next x : PutStage) :
    (calls.set call (e, next)).countP (fun c => c.2 = x) + (if stage = x then 1 else 0) =
      calls.countP (fun c => c.2 = x) + (if next = x then 1 else 0) := by
  obtain ⟨before, after, hcalls, -, hset⟩ := exists_call h
  rw [hset, hcalls]
  simp only [List.countP_append, List.countP_cons, decide_eq_true_eq]
  omega

theorem countP_erase_call (h : calls[call]? = some (e, stage)) (x : PutStage) :
    (calls.eraseIdx call).countP (fun c => c.2 = x) + (if stage = x then 1 else 0) =
      calls.countP (fun c => c.2 = x) := by
  obtain ⟨before, after, hcalls, herase, -⟩ := exists_call h
  rw [herase, hcalls]
  simp only [List.countP_append, List.countP_cons, decide_eq_true_eq]
  omega

theorem map_set_call (h : calls[call]? = some (e, stage)) (next : PutStage) :
    (calls.set call (e, next)).map Prod.fst = calls.map Prod.fst := by
  obtain ⟨before, after, hcalls, -, hset⟩ := exists_call h
  rw [hset, hcalls]
  simp

theorem perm_erase_call (h : calls[call]? = some (e, stage)) :
    (calls.map Prod.fst).Perm (e :: (calls.eraseIdx call).map Prod.fst) := by
  obtain ⟨before, after, hcalls, herase, -⟩ := exists_call h
  rw [herase, hcalls]
  simp

end Calls

/-! ## §4 One step -/

variable {s : Stream E}

theorem Accounted.put (h : s.Accounted) (e : E) (hopen : s.subscription.closed = false) :
    (s.step (.put e)).Accounted := by
  have hstep : s.step (.put e) =
      { s with calls := s.calls ++ [(e, .offer)], offered := s.offered ++ [e] } := by
    simp [step, hopen]
  have hcalls (stage : PutStage) (hne : stage ≠ .offer) :
      (s.calls ++ [(e, PutStage.offer)]).countP (fun c => c.2 = stage) = s.callsAt stage := by
    simp [callsAt, hne.symm]
  rw [hstep]
  refine ⟨h.line, ?_, ?_, ?_, h.closed⟩
  · have hperm := h.offered.append_right [e]
    simpa [List.append_assoc] using hperm
  · have hevicted := h.evicted
    rw [← hcalls .count (by decide)] at hevicted
    exact hevicted
  · have hrejected := h.rejected
    rw [← hcalls .retry (by decide)] at hrejected
    exact hrejected

/-- A call that moves on keeps its event offered. -/
theorem Accounted.offered_set (h : s.Accounted) {call : ℕ} {e : E} {stage : PutStage}
    (hcall : s.calls[call]? = some (e, stage)) (next : PutStage) :
    s.offered.Perm (s.enqueued ++ s.rejected ++ (s.calls.set call (e, next)).map Prod.fst) := by
  rw [map_set_call hcall]
  exact h.offered

/-- A call that gets its event on the queue is over. -/
theorem Accounted.enqueue (h : s.Accounted) {call : ℕ} {e : E} {stage : PutStage}
    (hcall : s.calls[call]? = some (e, stage)) (hstage : stage ≠ .count)
    {sub' : MessageSubscription E} (hput : s.subscription.putNowait (some e) = some sub') :
    ({ s with subscription := sub', calls := s.calls.eraseIdx call,
              enqueued := s.enqueued ++ [e] } : Stream E).Accounted := by
  obtain rfl := putNowait_eq_some hput
  have hcount := countP_erase_call hcall .count
  have hretry := countP_erase_call hcall .retry
  rw [if_neg hstage] at hcount
  refine ⟨?_, ?_, ?_, ?_, h.closed⟩
  · show Line (s.enqueued ++ [e]) s.taken s.evicted _
    rw [waiting_put]
    exact h.line.join e
  · refine (h.offered.trans ((perm_erase_call hcall).append_left _)).trans ?_
    show (s.enqueued ++ s.rejected ++ e :: (s.calls.eraseIdx call).map Prod.fst).Perm
      (s.enqueued ++ [e] ++ s.rejected ++ (s.calls.eraseIdx call).map Prod.fst)
    simp only [List.append_assoc, List.singleton_append]
    exact List.perm_middle.append_left _
  · have hevicted := h.evicted
    show s.evicted.length ≤ s.counted + (s.calls.eraseIdx call).countP _ + s.droppedByClose
    unfold callsAt at hevicted
    omega
  · have hrejected := h.rejected
    show s.rejected.length + (s.calls.eraseIdx call).countP _ ≤ s.counted
    unfold callsAt at hrejected
    omega

/-- Each step of a call of `put` is on the books. -/
theorem Accounted.proceed (h : s.Accounted) {call : ℕ} {e : E} {stage : PutStage}
    (hcall : s.calls[call]? = some (e, stage)) : (s.proceed call e stage).Accounted := by
  have hevicted := h.evicted
  have hrejected := h.rejected
  unfold callsAt at hevicted hrejected
  cases stage with
  | offer =>
    -- the first `put_nowait`: the event is queued, or the queue is full
    cases hput : s.subscription.putNowait (some e) with
    | some sub' => simpa only [Stream.proceed, hput] using h.enqueue hcall (by decide) hput
    | none =>
      have hcount := countP_set_call hcall .evict .count
      have hretry := countP_set_call hcall .evict .retry
      simp only [reduceCtorEq, if_false, Nat.add_zero] at hcount hretry
      simp only [Stream.proceed, hput]
      refine ⟨h.line, h.offered_set hcall .evict, ?_, ?_, h.closed⟩
      · show s.evicted.length ≤
          s.counted + (s.calls.set call (e, .evict)).countP _ + s.droppedByClose
        rw [hcount]
        exact hevicted
      · show s.rejected.length + (s.calls.set call (e, .evict)).countP _ ≤ s.counted
        rw [hretry]
        exact hrejected
  | evict =>
    -- `get_nowait` takes the oldest event off, and the call is about to count it
    have hcount := countP_set_call hcall .count .count
    have hretry := countP_set_call hcall .count .retry
    simp only [reduceCtorEq, if_false, if_true, Nat.add_zero] at hcount hretry
    refine ⟨Line.dropOldest h.line, h.offered_set hcall .count, ?_, ?_, h.closed⟩
    · have hone := length_oldest_le s.subscription.queue
      show (s.evicted ++ _).length ≤
        s.counted + (s.calls.set call (e, .count)).countP _ + s.droppedByClose
      rw [List.length_append, hcount]
      omega
    · show s.rejected.length + (s.calls.set call (e, .count)).countP _ ≤ s.counted
      rw [hretry]
      exact hrejected
  | count =>
    -- the drop is counted: the books of the call move to the counter
    have hcount := countP_set_call hcall .retry .count
    have hretry := countP_set_call hcall .retry .retry
    simp only [reduceCtorEq, if_false, if_true, Nat.add_zero] at hcount hretry
    have hcounted : (s.proceed call e .count).counted = s.counted + 1 :=
      Nat.add_right_comm _ _ _
    refine ⟨h.line, h.offered_set hcall .retry, ?_, ?_, h.closed⟩
    · rw [hcounted]
      show s.evicted.length ≤
        s.counted + 1 + (s.calls.set call (e, .retry)).countP _ + s.droppedByClose
      omega
    · rw [hcounted]
      show s.rejected.length + (s.calls.set call (e, .retry)).countP _ ≤ s.counted + 1
      omega
  | retry =>
    -- the second `put_nowait`: the event is queued, or given up as counted
    cases hput : s.subscription.putNowait (some e) with
    | some sub' => simpa only [Stream.proceed, hput] using h.enqueue hcall (by decide) hput
    | none =>
      have hcount := countP_erase_call hcall .count
      have hretry := countP_erase_call hcall .retry
      simp only [reduceCtorEq, if_false, if_true, Nat.add_zero] at hcount hretry
      simp only [Stream.proceed, hput]
      refine ⟨h.line, ?_, ?_, ?_, h.closed⟩
      · have hperm := h.offered.trans ((perm_erase_call hcall).append_left _)
        simpa [List.append_assoc] using hperm
      · show s.evicted.length ≤ s.counted + (s.calls.eraseIdx call).countP _ + s.droppedByClose
        rw [hcount]
        exact hevicted
      · show (s.rejected ++ [e]).length + (s.calls.eraseIdx call).countP _ ≤ s.counted
        rw [List.length_append, List.length_singleton]
        omega

/-- A `close` that gets its entry on the queue is over. -/
theorem Accounted.closed_put (h : s.Accounted) {sub' : MessageSubscription E}
    (hput : s.subscription.putNowait none = some sub') (hclosed : s.subscription.closed = true)
    (hevicted : s.evicted.length ≤ s.counted + s.callsAt .count + 1) :
    ({ s with subscription := sub', closing := none } : Stream E).Accounted := by
  obtain rfl := putNowait_eq_some hput
  refine ⟨?_, h.offered, ?_, h.rejected, fun hne => absurd rfl hne⟩
  · show Line s.enqueued s.taken s.evicted _
    rw [waiting_put]
    simpa using h.line
  · show s.evicted.length ≤
      s.counted + s.callsAt .count + (if s.subscription.closed then 1 else 0)
    rw [hclosed]
    exact hevicted

/-- Each step of `close` is on the books. -/
theorem Accounted.closeStep (h : s.Accounted) : (s.closeStep s.closing).Accounted := by
  have hevicted := h.evicted
  unfold droppedByClose at hevicted
  cases hclosing : s.closing with
  | none =>
    rw [hclosing] at hevicted
    cases hclosed : s.subscription.closed with
    | true => simpa [Stream.closeStep, hclosed] using h
    | false =>
      have hout : s.closeStep none =
          { s with subscription := { s.subscription with closed := true },
                   closing := some .offer } := by simp [Stream.closeStep, hclosed]
      rw [hout]
      rw [hclosed] at hevicted
      exact ⟨h.line, h.offered, hevicted, h.rejected, fun _ => rfl⟩
  | some stage =>
    have hclosed : s.subscription.closed = true := h.closed (by simp [hclosing])
    rw [hclosing] at hevicted
    -- what is evicted is on the books once the count is made, which closing does last
    cases stage with
    | offer =>
      cases hput : s.subscription.putNowait none with
      | some sub' =>
        simpa only [Stream.closeStep, hput] using
          h.closed_put hput hclosed (Nat.le_add_right_of_le hevicted)
      | none =>
        simp only [Stream.closeStep, hput]
        exact ⟨h.line, h.offered, hevicted, h.rejected, fun _ => hclosed⟩
    | evict =>
      refine ⟨Line.dropOldest h.line, h.offered, ?_, h.rejected, fun _ => hclosed⟩
      have hone := length_oldest_le s.subscription.queue
      have hbefore : s.evicted.length ≤ s.counted + s.callsAt .count := hevicted
      show (s.evicted ++ _).length ≤ s.counted + s.callsAt .count + 1
      rw [List.length_append]
      omega
    | count => exact h
    | retry =>
      cases hput : s.subscription.putNowait none with
      | some sub' => simpa only [Stream.closeStep, hput] using h.closed_put hput hclosed hevicted
      | none =>
        simp only [Stream.closeStep, hput]
        refine ⟨h.line, h.offered, ?_, h.rejected, fun hne => absurd rfl hne⟩
        show s.evicted.length ≤
          s.counted + s.callsAt .count + (if s.subscription.closed then 1 else 0)
        rw [hclosed]
        exact hevicted

/-- What the client has and what the pump has in hand count together. -/
theorem Accounted.frames_congr (h : s.Accounted) {received : List (Frame E)}
    {pump : PumpStage E} (hframes : received ++ pump.inHand = s.frames) :
    ({ s with received := received, pump := pump } : Stream E).Accounted := by
  have htaken : ({ s with received := received, pump := pump } : Stream E).taken = s.taken :=
    congrArg (List.filterMap Frame.event?) hframes
  have hcounted : ({ s with received := received, pump := pump } : Stream E).counted =
      s.counted :=
    congrArg (fun frames => s.subscription.dropped + (frames.map Frame.dropped).sum) hframes
  exact ⟨htaken ▸ h.line, h.offered, hcounted ▸ h.evicted, hcounted ▸ h.rejected, h.closed⟩

/-- The drops that the pump asks for are in its next frame, or there were none. -/
theorem Accounted.takeDropped (h : s.Accounted) {pump : PumpStage E} {frames : List (Frame E)}
    (hframes : s.received ++ pump.inHand = s.frames ++ frames)
    (hevents : frames.filterMap Frame.event? = [])
    (hdropped : (frames.map Frame.dropped).sum = s.subscription.dropped) :
    ({ s with subscription := { s.subscription with dropped := 0 }, pump := pump } :
      Stream E).Accounted := by
  have htaken : ({ s with subscription := { s.subscription with dropped := 0 }, pump := pump } :
      Stream E).taken = s.taken := by
    show (s.received ++ pump.inHand).filterMap Frame.event? = _
    rw [hframes, List.filterMap_append, hevents, List.append_nil]
    rfl
  have hcounted : ({ s with subscription := { s.subscription with dropped := 0 }, pump := pump } :
      Stream E).counted = s.counted := by
    show 0 + ((s.received ++ pump.inHand).map Frame.dropped).sum = _
    rw [hframes, List.map_append, List.sum_append, hdropped, counted]
    omega
  exact ⟨htaken ▸ h.line, h.offered, hcounted ▸ h.evicted, hcounted ▸ h.rejected, h.closed⟩

/-- The pump takes the event at the front. -/
theorem Accounted.take (h : s.Accounted) (e : E) {rest : List (Option E)}
    (hframes : s.frames = s.received)
    (hline : Line s.enqueued s.taken s.evicted (e :: rest.filterMap id)) :
    ({ s with subscription := { s.subscription with queue := rest },
              pump := .sending (.event e) } : Stream E).Accounted := by
  have htaken : (s.received ++ [Frame.event e]).filterMap Frame.event? = s.taken ++ [e] := by
    simp [taken, hframes, Frame.event?]
  have hcounted : s.subscription.dropped +
      ((s.received ++ [Frame.event e]).map Frame.dropped).sum = s.counted := by
    simp [counted, hframes, Frame.dropped]
  refine ⟨?_, h.offered, ?_, ?_, h.closed⟩
  · show Line s.enqueued ((s.received ++ [Frame.event e]).filterMap Frame.event?) s.evicted _
    rw [htaken]
    exact hline.take
  · show s.evicted.length ≤ s.subscription.dropped +
      ((s.received ++ [Frame.event e]).map Frame.dropped).sum + s.callsAt .count + s.droppedByClose
    rw [hcounted]
    exact h.evicted
  · show s.rejected.length + s.callsAt .retry ≤ s.subscription.dropped +
      ((s.received ++ [Frame.event e]).map Frame.dropped).sum
    rw [hcounted]
    exact h.rejected

/-- Each step of the pump is on the books. -/
theorem Accounted.pumpStep (h : s.Accounted) (sends : Bool) :
    (s.pumpStep sends s.pump).Accounted := by
  cases hpump : s.pump with
  | getting =>
    have hframes : s.frames = s.received := by simp [frames, hpump, PumpStage.inHand]
    cases hqueue : s.subscription.queue with
    | nil => simpa [Stream.pumpStep, hqueue] using h
    | cons entry rest =>
      simp only [Stream.pumpStep, hqueue]
      have hline := h.line
      unfold MessageSubscription.waiting at hline
      rw [hqueue] at hline
      cases entry with
      | none =>
        -- the mark that `close` left: the pump ends, the events behind it stay queued
        have hsame : s.received ++ (PumpStage.ended none : PumpStage E).inHand = s.frames := by
          simp [hframes, PumpStage.inHand]
        have hnext := h.frames_congr hsame
        have htaken : ({ s with received := s.received, pump := .ended none } : Stream E).taken =
            s.taken := congrArg (List.filterMap Frame.event?) hsame
        refine ⟨?_, h.offered, hnext.evicted, hnext.rejected, h.closed⟩
        show Line s.enqueued (({ s with pump := .ended none } : Stream E).taken) s.evicted _
        rw [htaken]
        exact hline
      | some e => exact h.take e hframes hline
  | sending frame =>
    have hframes : s.frames = s.received ++ [frame] := by simp [frames, hpump, PumpStage.inHand]
    cases sends with
    | true =>
      -- sent: the frame in hand is received
      apply h.frames_congr
      cases frame <;> simp [hframes, PumpStage.inHand]
    | false => exact h.frames_congr hframes.symm
  -- not sent: the pump ends with the frame in hand
  | sent =>
    -- the counter is taken and reported, if it is not zero
    have hframes : s.frames = s.received := by simp [frames, hpump, PumpStage.inHand]
    by_cases hpos : s.subscription.dropped > 0
    · have hsame : s.received ++
          (PumpStage.sending (.streamStatus s.subscription.dropped) : PumpStage E).inHand =
          s.frames ++ [.streamStatus s.subscription.dropped] := by simp [hframes, PumpStage.inHand]
      simpa [Stream.pumpStep, MessageSubscription.takeDropped, hpos] using
        h.takeDropped hsame (by simp [Frame.event?]) (by simp [Frame.dropped])
    · have hsame : s.received ++ (PumpStage.getting : PumpStage E).inHand = s.frames ++ [] := by
        simp [hframes, PumpStage.inHand]
      have hzero : s.subscription.dropped = 0 := by omega
      simpa [Stream.pumpStep, MessageSubscription.takeDropped, hzero] using
        h.takeDropped hsame rfl (by simp [hzero])
  | timedOut =>
    -- as after an event, with a heartbeat in place of no report
    have hframes : s.frames = s.received := by simp [frames, hpump, PumpStage.inHand]
    by_cases hpos : s.subscription.dropped > 0
    · have hsame : s.received ++
          (PumpStage.sending (.streamStatus s.subscription.dropped) : PumpStage E).inHand =
          s.frames ++ [.streamStatus s.subscription.dropped] := by simp [hframes, PumpStage.inHand]
      simpa [Stream.pumpStep, MessageSubscription.takeDropped, hpos] using
        h.takeDropped hsame (by simp [Frame.event?]) (by simp [Frame.dropped])
    · have hsame : s.received ++ (PumpStage.sending .heartbeat : PumpStage E).inHand =
          s.frames ++ [.heartbeat] := by simp [hframes, PumpStage.inHand]
      have hzero : s.subscription.dropped = 0 := by omega
      simpa [Stream.pumpStep, MessageSubscription.takeDropped, hzero] using
        h.takeDropped hsame (by simp [Frame.event?]) (by simp [Frame.dropped, hzero])
  | ended unsent => exact h

/-! ## §5 Runs -/

theorem Accounted.step (h : s.Accounted) (a : StreamAction E) : (s.step a).Accounted := by
  cases a with
  | put e =>
    cases hclosed : s.subscription.closed with
    | true => simpa [Stream.step, hclosed] using h
    | false => exact h.put e hclosed
  | proceed call =>
    cases hcall : s.calls[call]? with
    | none => simpa [Stream.step, hcall] using h
    | some c => simpa [Stream.step, hcall] using h.proceed hcall
  | close => exact h.closeStep
  | pump sends => exact h.pumpStep sends
  | timeout =>
    cases hpump : s.pump with
    | getting =>
      cases hqueue : s.subscription.queue with
      | nil =>
        simp only [Stream.step, hpump, hqueue]
        apply h.frames_congr
        simp [frames, hpump, PumpStage.inHand]
      | cons entry rest => simpa [Stream.step, hpump, hqueue] using h
    | sending frame => simpa [Stream.step, hpump] using h
    | sent => simpa [Stream.step, hpump] using h
    | timedOut => simpa [Stream.step, hpump] using h
    | ended unsent => simpa [Stream.step, hpump] using h

theorem accounted_run (maxSize : ℕ) (actions : List (StreamAction E)) :
    (run step (start maxSize) actions).Accounted :=
  run_invariant Accounted (fun _ a h => h.step a) (accounted_start maxSize) actions

/-- What a stream does with the events it is offered: those that the pump has taken, and those
    behind them on the queue, are in the order in which they were put there; each event is in one
    place; and twice the counted drops bound what is lost, up to the calls that are about to count
    and one event that `close` may drop. -/
structure Kept (s : Stream E) : Prop where
  inOrder : (s.taken ++ s.subscription.waiting).Sublist s.enqueued
  onePlace : s.offered.Perm (s.taken ++ s.subscription.waiting ++ s.calls.map Prod.fst ++
    (s.evicted ++ s.rejected))
  lost_le : (s.evicted ++ s.rejected).length ≤
    2 * s.counted + s.callsAt .count + s.droppedByClose

/-- **A stream keeps its books over every interleaving** of publishers, pump and `close`.

    What was taken, dropped and is waiting lies on one line in the order of the queue; every event
    offered is in one place; and the counter bounds what was lost, up to what the calls under way
    are about to count. -/
theorem kept_run (maxSize : ℕ) (actions : List (StreamAction E)) :
    (run step (start maxSize) actions).Kept := by
  have h := accounted_run maxSize actions
  refine ⟨h.line.sublist, ?_, ?_⟩
  · have hperm := h.offered.trans ((h.line.perm.append_right _).append_right _)
    refine hperm.trans ?_
    classical
    rw [List.perm_iff_count]
    intro e
    simp only [List.count_append]
    omega
  · have hevicted := h.evicted
    have hrejected := h.rejected
    rw [List.length_append]
    omega

/-- **No loss is silent.**  While the subscription is open, when no drop was counted and no call is
    about to count one: the events taken, with those on the queue behind them, are all that were
    put on it, in their order, and no `put` has left its event. -/
theorem nothing_lost_of_nothing_counted (maxSize : ℕ) (actions : List (StreamAction E))
    (hopen : (run step (start maxSize) actions).subscription.closed = false)
    (hcounted : (run step (start maxSize) actions).counted = 0)
    (hcalls : (run step (start maxSize) actions).callsAt .count = 0) :
    (run step (start maxSize) actions).enqueued =
        (run step (start maxSize) actions).taken ++
          (run step (start maxSize) actions).subscription.waiting ∧
      (run step (start maxSize) actions).rejected = [] := by
  have h := accounted_run maxSize actions
  have hclosing : (run step (start maxSize) actions).closing = none := by
    by_contra hne
    rw [h.closed hne] at hopen
    cases hopen
  have hevicted := h.evicted
  have hrejected := h.rejected
  have hnone : (run step (start maxSize) actions).droppedByClose = 0 := by
    simp [droppedByClose, hclosing, hopen]
  rw [hcounted, hcalls, hnone] at hevicted
  rw [hcounted] at hrejected
  have hline := h.line
  rw [List.eq_nil_of_length_eq_zero (Nat.le_zero.mp hevicted)] at hline
  exact ⟨hline.eq_of_none_skipped, List.eq_nil_of_length_eq_zero (by omega)⟩

/-- Two publishers whose calls overlap, and the pump between them. -/
def overlapping : List (StreamAction ℕ) :=
  [.put 1, .put 2, .proceed 1, .pump true, .proceed 0, .pump true, .pump true, .put 3, .proceed 0]

theorem nothing_lost_of_nothing_counted_overlapping :
    (run step (start 2) overlapping).enqueued =
        (run step (start 2) overlapping).taken ++
          (run step (start 2) overlapping).subscription.waiting ∧
      (run step (start 2) overlapping).rejected = [] :=
  nothing_lost_of_nothing_counted 2 overlapping (by decide) (by decide) (by decide)

/-- A full queue of one: each of two calls drops the other's event, is overtaken by a third before
    its second try, and leaves its own; two drops are counted for four events that are lost. -/
example :
    let s := run step (start 1) [.put 0, .proceed 0, .put 1, .proceed 0, .proceed 0, .proceed 0,
      .put 2, .proceed 1, .proceed 0, .put 3, .proceed 0, .proceed 0, .proceed 0, .put 4,
      .proceed 1, .proceed 0]
    (s.evicted, s.rejected, s.counted) = ([0, 2], [1, 3], 2) := by decide

end Stream

end CryptoTrading.Events

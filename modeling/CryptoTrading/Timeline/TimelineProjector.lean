import CryptoTrading.Lib.Transit
import CryptoTrading.Timeline.ProjectedEvents

/-!
# The timeline projector

Embeds `src/server/timeline_projector.py` with `save_batch` of
`src/database/repositories/providers/postgres_timeline_repository.py`.

An event that is published makes a call of the projector's callback, and any thread may call
`flush`.  A call goes on from one access of what is shared to the next, and other calls may take
their accesses between.  A batch is committed as a whole or fails as a whole.

What `flush` does to the items is what carriers do in `Lib.Transit`: it takes all that wait, and
delivers them or puts them back (`transit_step`).  So an item is never lost and never doubled
(`everything_run_perm`).
-/

namespace CryptoTrading.Timeline

open CryptoTrading.Lib

/-! ## §1 The table of items -/

/-- `timeline_items`: its rows by their id. -/
structure TimelineTable where
  rows : Dict String TimelineItem
  keyed : ∀ k v, rows.get? k = some v → v.timelineId = k

namespace TimelineTable

def items (table : TimelineTable) : List TimelineItem := table.rows.values

/-- `session.merge`. -/
def merge (table : TimelineTable) (item : TimelineItem) : TimelineTable where
  rows := table.rows.set item.timelineId item
  keyed k v h := by
    rw [Dict.get?_set] at h
    split at h
    · rename_i hk
      rw [← Option.some.inj h, hk]
    · exact table.keyed k v h

/-- `PostgresTimelineRepository.save_batch`. -/
def saveBatch (table : TimelineTable) (items : List TimelineItem) : TimelineTable :=
  items.foldl merge table

theorem keys_eq (table : TimelineTable) :
    table.rows.keys = table.items.map TimelineItem.timelineId := by
  unfold items Dict.keys Dict.values
  rw [List.map_map]
  refine List.map_congr_left fun e he => ?_
  exact (table.keyed e.1 e.2 ((Dict.get?_eq_some_iff _ _ _).mpr he)).symm

theorem items_merge {table : TimelineTable} {item : TimelineItem}
    (h : item.timelineId ∉ table.items.map TimelineItem.timelineId) :
    (table.merge item).items = table.items ++ [item] := by
  rw [← keys_eq] at h
  have hentries : (table.merge item).rows.entries = _ := Dict.setIn_of_notMem item h
  unfold items Dict.values
  rw [hentries, List.map_append]
  rfl

/-- A batch of new ids is added as it is. -/
theorem items_saveBatch {table : TimelineTable} {batch : List TimelineItem}
    (h : ((table.items ++ batch).map TimelineItem.timelineId).Nodup) :
    (table.saveBatch batch).items = table.items ++ batch := by
  induction batch generalizing table with
  | nil => exact (List.append_nil _).symm
  | cons item rest ih =>
    have hnew : item.timelineId ∉ table.items.map TimelineItem.timelineId := by
      rw [List.map_append, List.nodup_append] at h
      exact fun hmem => h.2.2 _ hmem _ List.mem_cons_self rfl
    have hmerge := items_merge hnew
    have hrest : ((table.merge item).saveBatch rest).items = _ := ih (by
      rwa [hmerge, List.append_assoc])
    rw [hmerge, List.append_assoc] at hrest
    exact hrest

end TimelineTable

/-! ## §2 The projector and its calls -/

structure TimelineProjector where
  maxItems : ℤ
  hasDbManager : Bool
  items : List TimelineItem
  unpersistedItems : List TimelineItem
  deriving DecidableEq

/-- What `_append_item` does under the lock, with `should_flush_evicted`. -/
def TimelineProjector.appendItem (p : TimelineProjector) (item : TimelineItem) :
    TimelineProjector × Bool :=
  let items := p.items ++ [item]
  let unpersistedItems :=
    if p.hasDbManager then p.unpersistedItems ++ [item] else p.unpersistedItems
  if (items.length : ℤ) > p.maxItems then
    ({ p with items := items.tail, unpersistedItems }, true)
  else ({ p with items, unpersistedItems }, false)

/-- A call of the callback or of `flush`, between its accesses. -/
inductive Call where
  /-- `put` has been called with an event. -/
  | putting (event : EventClass)
  /-- In `flush`, before its lock. -/
  | flushing
  /-- In `flush`, with the items it took. -/
  | saving (itemsToFlush : List TimelineItem)
  /-- In `flush`, after its batch failed. -/
  | failed (itemsToFlush : List TimelineItem)
  | returned
  deriving DecidableEq

/-- The batch of a running flush. -/
def Call.held : Call → List TimelineItem
  | .saving itemsToFlush | .failed itemsToFlush => itemsToFlush
  | _ => []

/-- The projector, its callback object on the bus, the table and the calls. -/
structure RunningProjector where
  eventBus : MessageEventBus
  callback : ℕ
  projector : TimelineProjector
  table : TimelineTable
  calls : List Call

inductive Action where
  | publish (event : PublishedEvent)
  /-- A `put` projects its event, to an item with a new id, and appends it. -/
  | append (call : ℕ) (timelineId : String)
  /-- The background thread, a query or `close` calls `flush`. -/
  | flush
  /-- A flush takes the items under the lock. -/
  | take (call : ℕ)
  | save (call : ℕ) (committed : Bool)
  /-- A flush puts its items back after a failure. -/
  | restore (call : ℕ)

/-- A call begins: an event is published, or `flush` is called. -/
def Action.Begins (a : Action) : Prop := (∃ event, a = .publish event) ∨ a = .flush

namespace RunningProjector

/-- `TimelineProjector.subscribe`, with the ids that the bus draws: one callback object under
    every derived type. -/
def subscribeAll (callback : ℕ) (subscriptionId : String → String) (types : List String)
    (bus : MessageEventBus) : MessageEventBus :=
  types.foldl (fun bus eventType => bus.subscribe eventType (subscriptionId eventType) callback)
    bus

/-- A projector that has been made with a database, over what it read from it, and has
    subscribed. -/
def start (bus : MessageEventBus) (callback : ℕ) (subscriptionId : String → String)
    (maxItems : ℤ) (items : List TimelineItem) (table : TimelineTable) : RunningProjector where
  eventBus := subscribeAll callback subscriptionId EventClass.deriveEventTypes bus
  callback := callback
  projector := ⟨maxItems, true, items, []⟩
  table := table
  calls := []

/-- The calls that `publish` makes of the callback. -/
def putCalls (t : RunningProjector) (event : PublishedEvent) : List Call :=
  ((t.eventBus.publish event.eventTypes).filter (· = t.callback)).map
    fun _ => .putting event.eventClass

/-- A call goes on. -/
def setCall (t : RunningProjector) (i : ℕ) (call : Call) : RunningProjector :=
  { t with calls := t.calls.set i call }

/-- One access of the projector: a call begins, or takes the lock, or writes to the table.

    A callback projects its event before it takes the lock.  A flush takes the items under the lock,
    saves them outside, and puts them back when the batch fails. -/
def step (t : RunningProjector) : Action → RunningProjector
  | .publish event => { t with calls := t.calls ++ t.putCalls event }
  | .append i timelineId =>
    match t.calls[i]? with
    | some (.putting event) =>
      match event.projectEvent timelineId with
      | .error _ => t.setCall i .returned  -- `publish` catches it
      | .ok item =>
        let (projector, shouldFlushEvicted) := t.projector.appendItem item
        { t with projector }.setCall i (if shouldFlushEvicted then .flushing else .returned)
    | _ => t
  -- the background thread, a query and `close` flush in the same way
  | .flush => { t with calls := t.calls ++ [.flushing] }
  | .take i =>
    match t.calls[i]? with
    | some .flushing =>
      -- nothing to write
      if !t.projector.hasDbManager || t.projector.unpersistedItems.isEmpty then
        t.setCall i .returned
      else
        { t with projector := { t.projector with unpersistedItems := [] } }.setCall i
          (.saving t.projector.unpersistedItems)
    | _ => t
  | .save i committed =>
    match t.calls[i]? with
    | some (.saving itemsToFlush) =>
      if committed then { t with table := t.table.saveBatch itemsToFlush }.setCall i .returned
      else t.setCall i (.failed itemsToFlush)
    | _ => t
  -- the items go back in front of those that came meanwhile
  | .restore i =>
    match t.calls[i]? with
    | some (.failed itemsToFlush) =>
      { t with projector := { t.projector with
          unpersistedItems := itemsToFlush ++ t.projector.unpersistedItems } }.setCall i .returned
    | _ => t

/-- The item that an action appends. -/
def appended (t : RunningProjector) : Action → List TimelineItem
  | .append i timelineId =>
    match t.calls[i]? with
    | some (.putting event) => (event.projectEvent timelineId).toOption.toList
    | _ => []
  | _ => []

/-- The items that a run appends, one after the other. -/
def appendedIn (t : RunningProjector) : List Action → List TimelineItem
  | [] => []
  | a :: rest => t.appended a ++ (t.step a).appendedIn rest

/-- The batches of the running flushes. -/
def held (t : RunningProjector) : List TimelineItem := t.calls.flatMap Call.held

/-- The unpersisted list, the batches of the running flushes and the table. -/
def places (t : RunningProjector) : List TimelineItem :=
  t.projector.unpersistedItems ++ t.held ++ t.table.items

/-! ## §3 Items in transit -/

/-- What waits is unpersisted, each call carries the batch it holds, and what has arrived is in
    the table. -/
def transit (t : RunningProjector) : Transit TimelineItem :=
  ⟨t.projector.unpersistedItems, t.calls.map Call.held, t.table.items⟩

theorem everything_transit (t : RunningProjector) : t.transit.everything = t.places := by
  unfold transit Transit.everything places held
  rw [List.flatMap_def]

/-- What an action does to the items in transit. -/
def moves (t : RunningProjector) : Action → List (Transit.Move TimelineItem)
  | .publish event => (t.putCalls event).map fun _ => .join
  | .append i timelineId => (t.appended (.append i timelineId)).map .put
  | .flush => [.join]
  | .take i =>
    match t.calls[i]? with
    | some .flushing => [.depart i]
    | _ => []
  | .save i committed =>
    match t.calls[i]? with
    | some (.saving _) => if committed then [.arrive i] else []
    | _ => []
  | .restore i =>
    match t.calls[i]? with
    | some (.failed _) => [.giveBack i]
    | _ => []

/-- The moves bring in what is appended. -/
theorem new_moves (t : RunningProjector) (a : Action) :
    (t.moves a).flatMap Transit.Move.new = t.appended a := by
  cases a with
  | publish event => simp [moves, appended, Transit.Move.new]
  | append i timelineId => simp [moves, List.flatMap_map, Transit.Move.new]
  | flush => rfl
  | take i =>
    simp only [moves]
    split <;> rfl
  | save i committed =>
    simp only [moves]
    split
    · cases committed <;> rfl
    · rfl
  | restore i =>
    simp only [moves]
    split <;> rfl

variable {t : RunningProjector} {i : ℕ} {call : Call}

theorem load_transit (h : t.calls[i]? = some call) : t.transit.load i = call.held := by
  unfold transit Transit.load
  rw [List.getElem?_map, h]
  rfl

theorem transit_setCall (t : RunningProjector) (i : ℕ) (call : Call) :
    (t.setCall i call).transit =
      { t.transit with carried := t.transit.carried.set i call.held } := by
  unfold transit setCall
  rw [List.map_set]

/-- A call that holds as much as before changes nothing. -/
theorem transit_setCall_of_held (h : t.calls[i]? = some call) {call' : Call}
    (hheld : call'.held = call.held) : (t.setCall i call').transit = t.transit := by
  obtain ⟨hi, hget⟩ := List.getElem?_eq_some_iff.mp h
  rw [transit_setCall, hheld, ← hget]
  unfold transit
  rw [← List.map_set, List.set_getElem_self]

theorem joins (t : Transit TimelineItem) (n : ℕ) :
    run Transit.move t (List.replicate n .join) =
      { t with carried := t.carried ++ List.replicate n [] } := by
  induction n generalizing t with
  | zero => simp
  | succ n ih =>
    rw [List.replicate_succ, run_cons, ih]
    simp [Transit.move, List.replicate_succ]

theorem map_held_putCalls (t : RunningProjector) (event : PublishedEvent) :
    (t.putCalls event).map Call.held = List.replicate (t.putCalls event).length [] := by
  refine List.eq_replicate_iff.mpr ⟨List.length_map _, fun l hl => ?_⟩
  obtain ⟨call, hcall, rfl⟩ := List.mem_map.mp hl
  obtain ⟨_, -, rfl⟩ := List.mem_map.mp hcall
  rfl

/-- The batch of a flush and the table are two of the places. -/
theorem nodup_batch (hids : (t.places.map TimelineItem.timelineId).Nodup)
    (h : t.calls[i]? = some call) :
    ((t.table.items ++ call.held).map TimelineItem.timelineId).Nodup := by
  have hheld : List.Sublist call.held t.held := by
    unfold held
    rw [List.flatMap_def]
    exact List.sublist_flatten_of_mem (List.mem_map_of_mem (List.mem_of_getElem? h))
  have hswap : ((call.held ++ t.table.items).map TimelineItem.timelineId).Nodup := by
    refine hids.sublist (List.Sublist.map _ ?_)
    exact (hheld.trans (List.sublist_append_right _ _)).append_right _
  exact (List.Perm.map _ List.perm_append_comm).nodup hswap

theorem unpersistedItems_appendItem {p : TimelineProjector} (hdb : p.hasDbManager = true)
    (item : TimelineItem) :
    (p.appendItem item).1.unpersistedItems = p.unpersistedItems ++ [item] := by
  simp only [TimelineProjector.appendItem, hdb, if_true]
  split <;> rfl

/-- Publishing an event adds the calls of `append`, which hold nothing yet. -/
theorem transit_publish (t : RunningProjector) (event : PublishedEvent) :
    (t.step (.publish event)).transit = run Transit.move t.transit (t.moves (.publish event)) := by
  have hmoves : t.moves (.publish event) =
      List.replicate (t.putCalls event).length .join := by simp [moves]
  rw [hmoves, joins, ← map_held_putCalls]
  simp [step, transit]

/-- Under the lock an item goes into the buffer; the call holds nothing, before and after. -/
theorem transit_append (hdb : t.projector.hasDbManager = true) (i : ℕ) (timelineId : String) :
    (t.step (.append i timelineId)).transit =
      run Transit.move t.transit (t.moves (.append i timelineId)) := by
  simp only [moves, appended, step]
  split
  · rename_i event hcall
    split
    · -- an event that has no item leaves with its call
      rename_i e he
      rw [he]
      exact transit_setCall_of_held hcall rfl
    · rename_i item hitem
      rw [hitem]
      have hheld : (if (t.projector.appendItem item).2 then Call.flushing
          else .returned).held = (Call.putting event).held := by
        split <;> rfl
      have happ : ({ t with projector := (t.projector.appendItem item).1 } :
          RunningProjector).calls[i]? = some (.putting event) := hcall
      refine (transit_setCall_of_held happ hheld).trans ?_
      unfold transit
      rw [unpersistedItems_appendItem hdb]
      rfl
  · rfl

/-- A flush takes the whole buffer; it returns at once when that is empty. -/
theorem transit_take (hdb : t.projector.hasDbManager = true) (i : ℕ) :
    (t.step (.take i)).transit = run Transit.move t.transit (t.moves (.take i)) := by
  simp only [moves, step]
  split
  · rename_i hcall
    have hlen : i < t.transit.carried.length := by
      unfold transit
      rw [List.length_map]
      exact (List.getElem?_eq_some_iff.mp hcall).1
    have hload := load_transit hcall
    rw [run_cons, run_nil, Transit.move, if_pos hlen, hload]
    split
    · rename_i hempty
      have hnone : t.projector.unpersistedItems = [] := by simpa [hdb] using hempty
      rw [transit_setCall]
      unfold transit
      rw [hnone]
      rfl
    · rw [transit_setCall]
      rfl
  · rfl

/-- A batch that is committed goes into the table, and one that is not stays with its flush. -/
theorem transit_save (hids : (t.places.map TimelineItem.timelineId).Nodup) (i : ℕ)
    (committed : Bool) :
    (t.step (.save i committed)).transit =
      run Transit.move t.transit (t.moves (.save i committed)) := by
  simp only [moves, step]
  split
  · rename_i batch hcall
    cases committed with
    | true =>
      have hsave : (t.table.saveBatch batch).items = t.table.items ++ batch :=
        TimelineTable.items_saveBatch (nodup_batch hids hcall)
      rw [if_pos rfl, if_pos rfl, run_cons, run_nil, Transit.move, load_transit hcall,
        transit_setCall]
      dsimp only [transit]
      rw [hsave]
      rfl
    | false =>
      rw [if_neg Bool.false_ne_true, if_neg Bool.false_ne_true, run_nil]
      exact transit_setCall_of_held hcall rfl
  · rfl

/-- The batch of a flush that failed goes back, in front of what was buffered meanwhile. -/
theorem transit_restore (t : RunningProjector) (i : ℕ) :
    (t.step (.restore i)).transit = run Transit.move t.transit (t.moves (.restore i)) := by
  simp only [moves, step]
  split
  · rename_i batch hcall
    rw [run_cons, run_nil, Transit.move, load_transit hcall, transit_setCall]
    rfl
  · rfl

/-- **An action moves the items as its moves do.** -/
theorem transit_step (hdb : t.projector.hasDbManager = true)
    (hids : (t.places.map TimelineItem.timelineId).Nodup) (a : Action) :
    (t.step a).transit = run Transit.move t.transit (t.moves a) := by
  cases a with
  | publish event => exact transit_publish t event
  | append i timelineId => exact transit_append hdb i timelineId
  | flush => simp [step, transit, moves, Transit.move, Call.held]
  | take i => exact transit_take hdb i
  | save i committed => exact transit_save hids i committed
  | restore i => exact transit_restore t i

theorem hasDbManager_step (t : RunningProjector) (a : Action) :
    (t.step a).projector.hasDbManager = t.projector.hasDbManager := by
  have happend : ∀ item, (t.projector.appendItem item).1.hasDbManager =
      t.projector.hasDbManager := by
    intro item
    unfold TimelineProjector.appendItem
    dsimp only
    split <;> rfl
  -- no action sets or clears the manager
  cases a with
  | append i timelineId =>
    simp only [step]
    split
    · split
      · rfl
      · exact happend _
    · rfl
  | publish event => rfl
  | flush => rfl
  | take i =>
    simp only [step]
    split
    · split <;> rfl
    · rfl
  | save i committed =>
    simp only [step]
    split
    · split <;> rfl
    · rfl
  | restore i =>
    simp only [step]
    split <;> rfl

/-- **An action adds to the places what it appends.** -/
theorem places_step (hdb : t.projector.hasDbManager = true)
    (hids : (t.places.map TimelineItem.timelineId).Nodup) (a : Action) :
    (t.step a).places.Perm (t.appended a ++ t.places) := by
  rw [← everything_transit, ← everything_transit, transit_step hdb hids, ← new_moves]
  exact Transit.everything_run t.transit (t.moves a)

/-- **The places hold what they held at first and what has been appended**, in any order of
    calls. -/
theorem places_run (hdb : t.projector.hasDbManager = true) (as : List Action)
    (hids : ((t.places ++ t.appendedIn as).map TimelineItem.timelineId).Nodup) :
    (run step t as).places.Perm (t.places ++ t.appendedIn as) := by
  induction as generalizing t with
  | nil => exact .of_eq (List.append_nil _).symm
  | cons a rest ih =>
    have hnow : (t.places.map TimelineItem.timelineId).Nodup :=
      hids.sublist (List.Sublist.map _ (List.sublist_append_left _ _))
    have hstep := places_step hdb hnow a
    have hall : ((t.step a).places ++ (t.step a).appendedIn rest).Perm
        (t.places ++ t.appendedIn (a :: rest)) := by
      refine (hstep.append_right _).trans ?_
      rw [appendedIn, ← List.append_assoc]
      exact List.perm_append_comm.append_right _
    have hids' := (List.Perm.map TimelineItem.timelineId hall).symm.nodup hids
    exact (ih ((hasDbManager_step t a).trans hdb) hids').trans hall

/-! ## §4 Every item in one place -/

variable (bus : MessageEventBus) (callback : ℕ) (subscriptionId : String → String) (maxItems : ℤ)
  (items : List TimelineItem) (table : TimelineTable)

theorem mem_subscribersOf_subscribeAll {types : List String} {eventType : String}
    (h : eventType ∈ types ∨ callback ∈ bus.subscribersOf eventType) :
    callback ∈ (subscribeAll callback subscriptionId types bus).subscribersOf eventType := by
  unfold subscribeAll
  induction types generalizing bus with
  | nil => simpa using h
  | cons first rest ih =>
    refine ih _ ?_
    rcases h with h | h
    · rcases List.mem_cons.mp h with rfl | h
      · exact .inr (bus.mem_subscribersOf_subscribe _ _ _)
      · exact .inl h
    · exact .inr (MessageEventBus.mem_subscribersOf_subscribe_of_mem h _ _)

/-- The bus and the callback stay as they are. -/
theorem eventBus_step (t : RunningProjector) (a : Action) :
    (t.step a).eventBus = t.eventBus ∧ (t.step a).callback = t.callback := by
  cases a with
  | publish event => exact ⟨rfl, rfl⟩
  | flush => exact ⟨rfl, rfl⟩
  | append i timelineId =>
    simp only [step]
    split
    · split <;> exact ⟨rfl, rfl⟩
    · exact ⟨rfl, rfl⟩
  | take i =>
    simp only [step]
    split
    · split <;> exact ⟨rfl, rfl⟩
    · exact ⟨rfl, rfl⟩
  | save i committed =>
    simp only [step]
    split
    · split <;> exact ⟨rfl, rfl⟩
    · exact ⟨rfl, rfl⟩
  | restore i =>
    simp only [step]
    split <;> exact ⟨rfl, rfl⟩

/-- The callback is on the bus under every derived type. -/
def Subscribed (t : RunningProjector) : Prop :=
  ∀ eventType ∈ EventClass.deriveEventTypes, t.callback ∈ t.eventBus.subscribersOf eventType

theorem subscribed_start :
    (start bus callback subscriptionId maxItems items table).Subscribed :=
  fun _ h => mem_subscribersOf_subscribeAll bus callback subscriptionId (.inl h)

theorem subscribed_step (h : t.Subscribed) (a : Action) : (t.step a).Subscribed := by
  unfold Subscribed at *
  rwa [(eventBus_step t a).1, (eventBus_step t a).2]

/-- **An event makes one call of the callback**, whatever its names. -/
theorem putCalls_eq (h : t.Subscribed) (event : PublishedEvent) :
    t.putCalls event = [.putting event.eventClass] := by
  have hname : event.eventClass.name ∈ event.eventTypes :=
    (event.mem_eventTypes _).mpr (List.mem_cons_of_mem _ List.mem_cons_self)
  have hcount := MessageEventBus.count_publish
    ⟨_, hname, h _ event.eventClass.name_mem_deriveEventTypes⟩
  have hfilter : (t.eventBus.publish event.eventTypes).filter (· = t.callback) =
      List.replicate 1 t.callback := by
    rw [← hcount]
    exact List.filter_eq _
  unfold putCalls
  rw [hfilter]
  rfl

/-- What a published event leads to: one call of the callback, which appends one item. -/
def LeadsToOneItem (t : RunningProjector) : Action → Prop
  | .publish event => (t.step (.publish event)).calls = t.calls ++ [.putting event.eventClass]
  | .append i timelineId => ∀ event, t.calls[i]? = some (.putting event) →
    (t.appended (.append i timelineId)).length = 1
  | _ => True

/-- The event that a call handles is of a class that its projection misreads. -/
def HandlesMisread (t : RunningProjector) : Action → Prop
  | .append i _ => ∃ event, t.calls[i]? = some (.putting event) ∧ event.Misread
  | _ => False

theorem leadsToOneItem_iff (h : t.Subscribed) (a : Action) :
    t.LeadsToOneItem a ↔ ¬ t.HandlesMisread a := by
  cases a with
  | publish event =>
    have hcalls : (t.step (.publish event)).calls = t.calls ++ t.putCalls event := rfl
    rw [putCalls_eq h] at hcalls
    exact iff_of_true hcalls not_false
  | append i timelineId =>
    have heach : ∀ event, t.calls[i]? = some (.putting event) →
        ((t.appended (.append i timelineId)).length = 1 ↔ ¬ event.Misread) := by
      intro event hcall
      rw [appended, hcall]
      exact event.length_projectEvent timelineId
    constructor
    · rintro hone ⟨event, hcall, hmisread⟩
      exact (heach event hcall).mp (hone event hcall) hmisread
    · intro hnot event hcall
      exact (heach event hcall).mpr fun hmisread => hnot ⟨event, hcall, hmisread⟩
  | flush => exact iff_of_true trivial not_false
  | take i => exact iff_of_true trivial not_false
  | save i committed => exact iff_of_true trivial not_false
  | restore i => exact iff_of_true trivial not_false

/-- Only flush `i` holds a batch, and nothing waits any more. -/
structure SavesAlone (t : RunningProjector) (i : ℕ) : Prop where
  nothing_waits : t.projector.unpersistedItems = []
  saving : t.calls[i]? = some .returned ∨ ∃ batch, t.calls[i]? = some (.saving batch)
  others : ∀ j ≠ i, ∀ call, t.calls[j]? = some call → call.held = []

theorem calls_setCall {j : ℕ} (hj : j ≠ i) (call : Call) :
    (t.setCall i call).calls[j]? = t.calls[j]? := by
  unfold setCall
  exact List.getElem?_set_ne hj.symm

theorem calls_setCall_self (h : t.calls[i]? = some call) (call' : Call) :
    (t.setCall i call').calls[i]? = some call' := by
  unfold setCall
  exact List.getElem?_set_self (List.getElem?_eq_some_iff.mp h).1

/-- A flush that takes the items, with no batch elsewhere, saves alone. -/
theorem savesAlone_take (hdb : t.projector.hasDbManager = true)
    (hcall : t.calls[i]? = some .flushing)
    (hothers : ∀ j ≠ i, ∀ call, t.calls[j]? = some call → call.held = []) :
    (t.step (.take i)).SavesAlone i := by
  simp only [step, hcall]
  split
  · rename_i hempty
    have hnone : t.projector.unpersistedItems = [] := by simpa [hdb] using hempty
    refine ⟨hnone, .inl (calls_setCall_self hcall _), fun j hj call h => hothers j hj call ?_⟩
    rwa [calls_setCall hj] at h
  · refine ⟨rfl, .inr ⟨t.projector.unpersistedItems, ?_⟩, fun j hj call h =>
      hothers j hj call ?_⟩
    · exact List.getElem?_set_self (List.getElem?_eq_some_iff.mp hcall).1
    · unfold setCall at h
      rwa [List.getElem?_set_ne hj.symm] at h

/-- New calls hold nothing. -/
theorem SavesAlone.append (h : t.SavesAlone i) {calls : List Call}
    (hcalls : ∀ call ∈ calls, call.held = []) :
    ({ t with calls := t.calls ++ calls } : RunningProjector).SavesAlone i := by
  have hi : i < t.calls.length := by
    rcases h.saving with hi | ⟨_, hi⟩ <;> exact (List.getElem?_eq_some_iff.mp hi).1
  refine ⟨h.nothing_waits, ?_, fun j hj call hcall => ?_⟩
  · dsimp only
    rw [List.getElem?_append_left hi]
    exact h.saving
  · rcases Nat.lt_or_ge j t.calls.length with hlt | hge
    · exact h.others j hj call (by rwa [List.getElem?_append_left hlt] at hcall)
    · rw [List.getElem?_append_right hge] at hcall
      exact hcalls call (List.mem_of_getElem? hcall)

theorem held_putCalls {event : PublishedEvent} (h : call ∈ t.putCalls event) :
    call.held = [] := by
  obtain ⟨_, -, rfl⟩ := List.mem_map.mp h
  rfl

/-- While calls only begin, the flush stays alone. -/
theorem SavesAlone.run_begins (h : t.SavesAlone i) {as : List Action}
    (has : ∀ a ∈ as, a.Begins) : (run step t as).SavesAlone i := by
  induction as generalizing t with
  | nil => exact h
  | cons a rest ih =>
    refine ih ?_ fun a ha => has a (List.mem_cons_of_mem _ ha)
    rcases has a List.mem_cons_self with ⟨event, rfl⟩ | rfl
    · exact h.append fun call => held_putCalls
    · exact h.append (by simp [Call.held])

/-- When the batch is committed, no call holds any. -/
theorem SavesAlone.save (h : t.SavesAlone i) :
    (t.step (.save i true)).projector.unpersistedItems = [] ∧
      ∀ call ∈ (t.step (.save i true)).calls, call.held = [] := by
  rcases h.saving with hcall | ⟨batch, hcall⟩
  · simp only [step, hcall]
    refine ⟨h.nothing_waits, fun call hmem => ?_⟩
    obtain ⟨j, hj⟩ := List.getElem?_of_mem hmem
    by_cases heq : j = i
    · subst heq
      rw [← Option.some.inj (hcall.symm.trans hj)]
      rfl
    · exact h.others j heq call hj
  · simp only [step, hcall, if_true]
    refine ⟨h.nothing_waits, fun call hmem => ?_⟩
    obtain ⟨j, hj⟩ := List.getElem?_of_mem hmem
    unfold setCall at hj
    by_cases heq : j = i
    · subst heq
      rw [List.getElem?_set_self (List.getElem?_eq_some_iff.mp hcall).1] at hj
      rw [← Option.some.inj hj]
      rfl
    · rw [List.getElem?_set_ne (Ne.symm heq)] at hj
      exact h.others j heq call hj

/-- **After a successful flush that ran alone, all is in the table.** -/
theorem items_table_of_flush (hdb : t.projector.hasDbManager = true)
    (hcall : t.calls[i]? = some .flushing)
    (hothers : ∀ j ≠ i, ∀ call, t.calls[j]? = some call → call.held = []) {as : List Action}
    (has : ∀ a ∈ as, a.Begins) :
    let t' := run step t (.take i :: as ++ [.save i true])
    t'.table.items = t'.places := by
  intro t'
  have hsaves : (run step (t.step (.take i)) as).SavesAlone i :=
    (savesAlone_take hdb hcall hothers).run_begins has
  obtain ⟨hwaits, hheld⟩ := hsaves.save
  have ht' : t' = (run step (t.step (.take i)) as).step (.save i true) := by
    simp only [t', run_cons, run_concat]
  rw [ht'] at *
  have hcarried : ∀ l ∈ ((run step (t.step (.take i)) as).step (.save i true)).transit.carried,
      l = [] := by
    intro l hl
    obtain ⟨call, hmem, rfl⟩ := List.mem_map.mp hl
    exact hheld call hmem
  rw [← everything_transit]
  exact Transit.arrived_eq_everything
    (t := ((run step (t.step (.take i)) as).step (.save i true)).transit) hwaits hcarried

theorem putting_mem_setCall {event : EventClass} (hcall : call ≠ .putting event)
    (h : .putting event ∈ (t.setCall i call).calls) : .putting event ∈ t.calls :=
  (List.mem_or_eq_of_mem_set h).resolve_right hcall.symm

/-- A new call of the callback comes from a published event. -/
theorem putting_mem_step {a : Action} {event : EventClass}
    (h : .putting event ∈ (t.step a).calls) :
    .putting event ∈ t.calls ∨ ∃ published, a = .publish published ∧
      published.eventClass = event := by
  -- only a publication begins calls of the callback; the other actions move calls on
  cases a with
  | publish published =>
    rcases List.mem_append.mp h with h | h
    · exact .inl h
    · obtain ⟨_, -, heq⟩ := List.mem_map.mp h
      exact .inr ⟨published, rfl, Call.putting.inj heq⟩
  | append i timelineId =>
    simp only [step] at h
    split at h
    · split at h
      · exact .inl (putting_mem_setCall (by simp) h)
      · refine .inl (putting_mem_setCall ?_ h)
        split <;> simp
    · exact .inl h
  | flush => exact .inl (by simpa [step] using h)
  | take i =>
    simp only [step] at h
    split at h
    · split at h
      · exact .inl (putting_mem_setCall (by simp) h)
      · exact .inl (putting_mem_setCall (by simp) h)
    · exact .inl h
  | save i committed =>
    simp only [step] at h
    split at h
    · split at h
      · exact .inl (putting_mem_setCall (by simp) h)
      · exact .inl (putting_mem_setCall (by simp) h)
    · exact .inl h
  | restore i =>
    simp only [step] at h
    split at h
    · exact .inl (putting_mem_setCall (by simp) h)
    · exact .inl h

/-- An event that a run handles has been published in it. -/
theorem not_handlesMisread {as : List Action}
    (hcalls : ∀ event, .putting event ∈ t.calls → ¬ event.Misread)
    (has : ∀ event, .publish event ∈ as → ¬ event.eventClass.Misread) :
    Along step (fun t a => ¬ t.HandlesMisread a) t as := by
  induction as generalizing t with
  | nil => trivial
  | cons a rest ih =>
    refine ⟨?_, ih (fun event h => ?_) fun event h => has event (List.mem_cons_of_mem _ h)⟩
    · cases a with
      | append i timelineId =>
        rintro ⟨event, hcall, hmisread⟩
        exact hcalls event (List.mem_of_getElem? hcall) hmisread
      | _ => exact not_false
    · rcases putting_mem_step h with h | ⟨published, rfl, rfl⟩
      · exact hcalls event h
      · exact has published List.mem_cons_self

/-- **No item is lost and none is doubled**, in any order of calls: every item is in one place, and
    after a successful flush that ran alone it is in the table.  An event leads to one item in all
    runs that handle none of the two classes that are misread, and only in these. -/
theorem items_kept (as : List Action) :
    let t := start bus callback subscriptionId maxItems items table
    ((table.items ++ t.appendedIn as).map TimelineItem.timelineId).Nodup →
    ((run step t as).places.Perm (table.items ++ t.appendedIn as) ∧
        ((run step t as).places.map TimelineItem.timelineId).Nodup) ∧
      (∀ bs cs i, as = bs ++ (.take i :: cs ++ [.save i true]) →
        (run step t bs).calls[i]? = some .flushing →
        (∀ j ≠ i, ∀ call, (run step t bs).calls[j]? = some call → call.held = []) →
        (∀ a ∈ cs, a.Begins) →
        (run step t as).table.items.Perm (table.items ++ t.appendedIn as)) ∧
      (Along step LeadsToOneItem t as ↔ Along step (fun t a => ¬ t.HandlesMisread a) t as) ∧
      ((∀ event, .publish event ∈ as → ¬ event.eventClass.Misread) →
        Along step LeadsToOneItem t as) := by
  intro t hids
  have hplaces : t.places = table.items := List.nil_append _
  have hrun : (run step t as).places.Perm (table.items ++ t.appendedIn as) := by
    have hrun := places_run (t := t) rfl as (by rwa [hplaces])
    rwa [hplaces] at hrun
  -- the subscriptions never change, so the condition can be read off each step alone
  have hone : Along step LeadsToOneItem t as ↔
      Along step (fun t a => ¬ t.HandlesMisread a) t as :=
    along_iff_of_invariant Subscribed (fun t a h => leadsToOneItem_iff h a)
      (fun t a h _ => subscribed_step h a)
      (subscribed_start bus callback subscriptionId maxItems items table) as
  refine ⟨⟨hrun, (List.Perm.map _ hrun).symm.nodup hids⟩, ?_, hone, fun has => hone.mpr ?_⟩
  · rintro bs cs i rfl hcall hothers hcs
    have hdb : (run step t bs).projector.hasDbManager = true :=
      run_invariant (fun t => t.projector.hasDbManager = true)
        (fun t a h => (hasDbManager_step t a).trans h) rfl bs
    have htable := items_table_of_flush hdb hcall hothers hcs
    rw [← run_append] at htable
    rw [htable]
    exact hrun
  · exact not_handlesMisread (fun event h => absurd h List.not_mem_nil) has

/-- An event of a class, under its names. -/
def published (c : EventClass) : PublishedEvent :=
  ⟨c, c.publishedTypes.dedup, fun _ => List.mem_dedup⟩

def emptyTable : TimelineTable := ⟨.empty, by simp⟩

/-- A projector with an empty table, on a bus of its own. -/
def emptyTimeline : RunningProjector := start ⟨.empty⟩ 0 id 2000 [] emptyTable

/-- Two items, the first of which a flush fails to save. -/
theorem items_kept_two_events :
    let as := [.publish (published .refChanged), .append 0 "a", .flush, .take 1, .save 1 false,
      .restore 1, .publish (published .agentActionFailed), .append 2 "b", .flush, .take 3,
      .save 3 true]
    (run step emptyTimeline as).table.items.Perm [⟨"a", .vcs⟩, ⟨"b", .agent⟩] ∧
      Along step LeadsToOneItem emptyTimeline as := by
  intro as
  have happended : emptyTable.items ++ emptyTimeline.appendedIn as =
      [⟨"a", .vcs⟩, ⟨"b", .agent⟩] := by
    decide +kernel
  have hids : ((emptyTable.items ++ emptyTimeline.appendedIn as).map
      TimelineItem.timelineId).Nodup := by
    rw [happended]
    decide
  have hcalls : (run step emptyTimeline (as.take 9)).calls =
      [.returned, .returned, .returned, .flushing] := by
    decide +kernel
  obtain ⟨-, hflush, -, hone⟩ := items_kept ⟨.empty⟩ 0 id 2000 [] emptyTable as hids
  refine ⟨?_, hone ?_⟩
  · rw [← happended]
    refine hflush (as.take 9) [] 3 rfl (congrArg (·[3]?) hcalls) (fun j _ call hcall => ?_)
      (by simp)
    have hmem := List.mem_of_getElem? ((congrArg (·[j]?) hcalls).symm.trans hcall)
    have hheld : ∀ call ∈ [Call.returned, .returned, .returned, .flushing],
        call.held = [] := by decide
    exact hheld call hmem
  · intro event h
    have hevent : event = published .refChanged ∨ event = published .agentActionFailed := by
      simpa [as] using h
    rcases hevent with rfl | rfl <;> decide

/-- A captured error leads to no item: the projection reads a field that its event does not
    have. -/
theorem runtimeErrorCaptured_lost :
    let as := [.publish (published .runtimeErrorCaptured), .append 0 "a"]
    emptyTimeline.appendedIn as = [] ∧ ¬ Along step LeadsToOneItem emptyTimeline as := by
  intro as
  refine ⟨by decide +kernel, fun h => ?_⟩
  have hone := h.2.1 .runtimeErrorCaptured (by decide +kernel)
  exact absurd hone (by decide +kernel)

end RunningProjector

end CryptoTrading.Timeline

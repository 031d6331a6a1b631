import CryptoTrading.Lib.Line

/-!
# The event stream of a websocket

Embeds `src/events/message_subscription.py`, and the pump that feeds a websocket from a
subscription, which is the same in `src/server/log_websocket.py` and
`src/server/agent_websocket.py`.

Any number of threads put events on the bounded queue of a subscription while one pump takes them
off and sends them.  A `put` that finds the queue full drops the oldest entry, counts, and tries
again; it takes several steps, and all that happens between them is another thread's.  The queue,
the counter and the flag each change in one step of their own.

Left out: what an event looks like as JSON, the loop that answers the pings of the client, and the
cancelling of the pump once the client is gone.
-/

namespace CryptoTrading.Events

open CryptoTrading.Lib

variable {E : Type}

/-! ## §1 The subscription -/

/-- An entry `none` is what `close` puts on the queue. -/
structure MessageSubscription (E : Type) where
  queue : List (Option E)
  maxSize : ℕ
  dropped : ℕ
  closed : Bool

namespace MessageSubscription

def new (maxSize : ℕ) : MessageSubscription E := ⟨[], maxSize, 0, false⟩

/-- `queue.put_nowait(entry)`; a queue of size zero has no bound. -/
def putNowait (s : MessageSubscription E) (entry : Option E) : Option (MessageSubscription E) :=
  if 0 < s.maxSize ∧ s.maxSize ≤ s.queue.length then none
  else some { s with queue := s.queue ++ [entry] }

/-- `queue.get_nowait()`, dropping what it returns. -/
def dropOldest (s : MessageSubscription E) : MessageSubscription E :=
  { s with queue := s.queue.tail }

def countDropped (s : MessageSubscription E) : MessageSubscription E :=
  { s with dropped := s.dropped + 1 }

/-- `take_dropped`. -/
def takeDropped (s : MessageSubscription E) : ℕ × MessageSubscription E :=
  (s.dropped, { s with dropped := 0 })

/-- The events that are in the queue. -/
def waiting (s : MessageSubscription E) : List E := s.queue.filterMap id

end MessageSubscription

/-- What a call of `put` or `close` does next. -/
inductive PutStage where
  /-- Put the entry, the flag having been looked at. -/
  | offer
  /-- The queue was full: drop the oldest entry. -/
  | evict
  | count
  /-- Put the entry again, or leave it. -/
  | retry
  deriving DecidableEq

/-! ## §2 The pump -/

/-- What a client is sent. -/
inductive Frame (E : Type) where
  | event (e : E)
  | streamStatus (dropped : ℕ)
  | heartbeat

/-- What the pump does next. -/
inductive PumpStage (E : Type) where
  | getting
  | sending (frame : Frame E)
  /-- An event was sent: ask what was dropped. -/
  | sent
  /-- `get` timed out: ask what was dropped. -/
  | timedOut
  /-- The loop has returned, with the frame that could not be sent. -/
  | ended (unsent : Option (Frame E))

/-! ## §3 The stream -/

/-- The subscription, the calls of `put` under way, the call of `close`, the pump and what the
    client has received.  Behind them is what has happened, which nothing reads: the events that
    were offered while the subscription was open, those put on the queue, those dropped from it
    and those left by a second try. -/
structure Stream (E : Type) where
  subscription : MessageSubscription E
  calls : List (E × PutStage)
  closing : Option PutStage
  pump : PumpStage E
  received : List (Frame E)
  offered : List E
  enqueued : List E
  evicted : List E
  rejected : List E

inductive StreamAction (E : Type) where
  /-- A thread calls `put`. -/
  | put (e : E)
  /-- A call of `put` takes its next step. -/
  | proceed (call : ℕ)
  /-- `close` takes its next step. -/
  | close
  /-- The pump takes its next step; `sends` says whether the frame gets through. -/
  | pump (sends : Bool)
  /-- The `get` of the pump times out. -/
  | timeout

namespace Stream

def start (maxSize : ℕ) : Stream E where
  subscription := .new maxSize
  calls := []
  closing := none
  pump := .getting
  received := []
  offered := []
  enqueued := []
  evicted := []
  rejected := []

/-- The next step of a call of `put`. -/
def proceed (s : Stream E) (call : ℕ) (e : E) : PutStage → Stream E
  | .offer =>
    match s.subscription.putNowait (some e) with
    | some subscription =>
      { s with subscription := subscription, calls := s.calls.eraseIdx call,
               enqueued := s.enqueued ++ [e] }
    | none => { s with calls := s.calls.set call (e, .evict) }
  -- `get_nowait` may find the queue empty by now, and the call counts all the same
  | .evict =>
    { s with subscription := s.subscription.dropOldest, calls := s.calls.set call (e, .count),
             evicted := s.evicted ++ (s.subscription.queue.take 1).filterMap id }
  | .count =>
    { s with subscription := s.subscription.countDropped, calls := s.calls.set call (e, .retry) }
  | .retry =>
    match s.subscription.putNowait (some e) with
    | some subscription =>
      { s with subscription := subscription, calls := s.calls.eraseIdx call,
               enqueued := s.enqueued ++ [e] }
    | none => { s with calls := s.calls.eraseIdx call, rejected := s.rejected ++ [e] }
-- the second `queue.Full` is passed over

/-- The next step of `close`, which counts nothing and runs once. -/
def closeStep (s : Stream E) : Option PutStage → Stream E
  | none =>
    -- the flag is set first, and a second call returns at once
    if s.subscription.closed then s
    else { s with subscription := { s.subscription with closed := true }, closing := some .offer }
  | some .offer =>
    match s.subscription.putNowait none with
    | some subscription => { s with subscription := subscription, closing := none }
    | none => { s with closing := some .evict }
  | some .evict =>
    { s with subscription := s.subscription.dropOldest, closing := some .retry,
             evicted := s.evicted ++ (s.subscription.queue.take 1).filterMap id }
  | some .retry =>
    match s.subscription.putNowait none with
    | some subscription => { s with subscription := subscription, closing := none }
    | none => { s with closing := none }
  -- `close` does not count what it drops
  | some .count => s

/-- The next step of the pump. -/
def pumpStep (s : Stream E) (sends : Bool) : PumpStage E → Stream E
  | .getting =>
    match s.subscription.queue with
    | [] => s
    | entry :: rest =>
      -- the mark of `close` ends the pump
      { s with subscription := { s.subscription with queue := rest },
               pump := entry.elim (.ended none) fun e => .sending (.event e) }
  | .sending frame =>
    if sends then
      { s with received := s.received ++ [frame],
               pump := match frame with
                 | .event _ => .sent
                 | _ => .getting }
    -- the client is gone
    else { s with pump := .ended (some frame) }
  | .sent =>
    let (dropped, subscription) := s.subscription.takeDropped
    { s with subscription := subscription,
             pump := if dropped > 0 then .sending (.streamStatus dropped) else .getting }
  -- a client that gets no events gets a heartbeat
  | .timedOut =>
    let (dropped, subscription) := s.subscription.takeDropped
    { s with subscription := subscription,
             pump := .sending (if dropped > 0 then .streamStatus dropped else .heartbeat) }
  | .ended _ => s

def step (s : Stream E) : StreamAction E → Stream E
  | .put e =>
    if s.subscription.closed then s
    else { s with calls := s.calls ++ [(e, .offer)], offered := s.offered ++ [e] }
  | .proceed call =>
    match s.calls[call]? with
    | some (e, stage) => s.proceed call e stage
    | none => s
  | .close => s.closeStep s.closing
  | .pump sends => s.pumpStep sends s.pump
  | .timeout =>
    match s.pump, s.subscription.queue with
    | .getting, [] => { s with pump := .timedOut }
    | _, _ => s

end Stream

end CryptoTrading.Events

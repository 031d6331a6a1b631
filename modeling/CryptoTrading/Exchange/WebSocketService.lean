import CryptoTrading.Lib.Dict
import CryptoTrading.Lib.Run
import Mathlib.Tactic.Positivity

/-!
# The websocket service of Crypto.com

Embeds `src/exchange/clients/cryptodotcom/cryptodotcom_websocket_service.py` with the channels of
`cryptodotcom_websocket_builder.py`.

Each visibility has a thread that keeps a connection: it opens a socket, runs the callbacks of the
socket one after the other, and opens the next socket when that one ends.  Any thread may call
`subscribe` and `unsubscribe`.  All of them go on from one access of what is shared to the next,
and the others may take their accesses between; what the code does under its lock is one access.
The network may open and close sockets at any time.

The model begins when `connect` has started both threads, so `_ensure_connection` finds the thread
that it looks for.  A wait that times out has found its event unset.  Ids and nonces of messages
are left out, and so are `_authenticated_connections` and `_last_heartbeat`, which nothing reads.

What the exchange does with a message is not part of the model.  That a connection feeds a channel
is said of what was sent over it: a subscription, after the authentication where one is needed, and
no `unsubscribe` since (`Socket.channels`).
-/

namespace CryptoTrading.Exchange

open CryptoTrading.Lib

/-! ## §1 Subscriptions and sockets -/

inductive SubscriptionVisibility where
  | «public»
  | «private»
  deriving DecidableEq

instance : Fintype SubscriptionVisibility where
  elems := {.public, .private}
  complete visibility := by cases visibility <;> decide

/-- A `CryptoDotComWebSocketBuilder` that one of its methods has configured. -/
inductive WebSocketBuilder where
  | marketData (tickerSymbol : String)
  | candles (tickerSymbol interval : String)
  | accountBalance
  | orderUpdate (instrumentName : String)
  deriving DecidableEq

namespace WebSocketBuilder

def key : WebSocketBuilder → String
  | .marketData tickerSymbol => "ticker." ++ tickerSymbol
  | .candles tickerSymbol interval => "candlestick." ++ interval ++ "." ++ tickerSymbol
  | .accountBalance => "user.balance"
  | .orderUpdate instrumentName => "user.order." ++ instrumentName

def visibility : WebSocketBuilder → SubscriptionVisibility
  | .marketData _ => .public
  | .candles _ _ => .public
  | .accountBalance => .private
  | .orderUpdate _ => .private

theorem head?_key (builder : WebSocketBuilder) :
    builder.key.toList.head? = some 'u' ↔ builder.visibility = .private := by
  cases builder <;> simp [key, visibility]

/-- A channel belongs to one visibility. -/
theorem visibility_eq_of_key_eq {b c : WebSocketBuilder} (h : b.key = c.key) :
    b.visibility = c.visibility := by
  have hb := b.head?_key
  rw [h, c.head?_key] at hb
  cases hvb : b.visibility <;> cases hvc : c.visibility <;> simp_all

end WebSocketBuilder

/-- What the service sends. -/
inductive Frame where
  | auth
  | respondHeartbeat
  | subscribe (channel : String)
  | unsubscribe (channel : String)
  deriving DecidableEq

/-- What passes over a connection, as far as the subscriptions depend on it. -/
inductive Exchanged where
  | sent (frame : Frame)
  /-- The exchange has accepted an authentication. -/
  | authenticated
  deriving DecidableEq

/-- A `WebSocketApp`. -/
structure Socket where
  visibility : SubscriptionVisibility
  isOpen : Bool
  exchanged : List Exchanged
  deriving DecidableEq

namespace Socket

/-- What a message makes of the channels that are subscribed to over the connection.  On a private
    one, subscriptions that were sent before the authentication was accepted do not count. -/
def feed (visibility : SubscriptionVisibility) (channels : List String) :
    Exchanged → List String
  | .sent (.subscribe channel) => channel :: channels
  | .sent (.unsubscribe channel) => channels.filter (· ≠ channel)
  | .sent .auth => channels
  | .sent .respondHeartbeat => channels
  | .authenticated => if visibility = .private then [] else channels

/-- The channels that are subscribed to, going by what was sent over the connection. -/
def channels (socket : Socket) : List String :=
  socket.exchanged.foldl (feed socket.visibility) []

/-- `send`, which raises on a socket that is not open. -/
def send (socket : Socket) (frame : Frame) : Socket :=
  if socket.isOpen then { socket with exchanged := socket.exchanged ++ [.sent frame] } else socket

def accept (socket : Socket) : Socket :=
  { socket with exchanged := socket.exchanged ++ [.authenticated] }

def opened (socket : Socket) : Socket := { socket with isOpen := true }

def closed (socket : Socket) : Socket := { socket with isOpen := false }

variable (socket : Socket)

@[simp] theorem visibility_send (frame : Frame) :
    (socket.send frame).visibility = socket.visibility := by
  unfold send
  split <;> rfl

@[simp] theorem isOpen_send (frame : Frame) : (socket.send frame).isOpen = socket.isOpen := by
  unfold send
  split <;> rfl

theorem channels_send (h : socket.isOpen = true) (frame : Frame) :
    (socket.send frame).channels = feed socket.visibility socket.channels (.sent frame) := by
  rw [send, if_pos h, channels, List.foldl_append]
  rfl

/-- Nothing but its own `unsubscribe` takes a channel away. -/
theorem mem_channels_send {k : String} (h : k ∈ socket.channels) {frame : Frame}
    (hframe : frame ≠ .unsubscribe k) : k ∈ (socket.send frame).channels := by
  by_cases hopen : socket.isOpen = true
  · rw [channels_send socket hopen]
    cases frame with
    | auth => exact h
    | respondHeartbeat => exact h
    | subscribe channel => exact List.mem_cons_of_mem channel h
    | unsubscribe channel =>
      have hne : k ≠ channel := fun he => hframe (congrArg Frame.unsubscribe he.symm)
      exact List.mem_filter.mpr ⟨h, by simpa using hne⟩
  · rwa [send, if_neg hopen]

theorem mem_channels_send_subscribe (h : socket.isOpen = true) (k : String) :
    k ∈ (socket.send (.subscribe k)).channels := by
  rw [channels_send socket h]
  exact List.mem_cons_self

/-- Where a channel comes from. -/
theorem of_mem_channels_send {k : String} {frame : Frame} (h : k ∈ (socket.send frame).channels) :
    k ∈ socket.channels ∨ frame = .subscribe k := by
  by_cases hopen : socket.isOpen = true
  · rw [channels_send socket hopen] at h
    cases frame with
    | auth => exact .inl h
    | respondHeartbeat => exact .inl h
    | subscribe channel =>
      rcases List.mem_cons.mp h with rfl | h
      · exact .inr rfl
      · exact .inl h
    | unsubscribe channel => exact .inl (List.mem_filter.mp h).1
  · rw [send, if_neg hopen] at h
    exact .inl h

theorem notMem_channels_send_unsubscribe (h : socket.isOpen = true) (k : String) :
    k ∉ (socket.send (.unsubscribe k)).channels := by
  rw [channels_send socket h]
  intro hmem
  simpa using (List.mem_filter.mp hmem).2

theorem of_mem_channels_accept {k : String} (h : k ∈ socket.accept.channels) :
    k ∈ socket.channels := by
  rw [accept, channels, List.foldl_append] at h
  change k ∈ (if socket.visibility = .private then [] else socket.channels) at h
  split at h
  · cases h
  · exact h

end Socket

/-! ## §2 The service and its threads -/

/-- The callback of its socket in which a connection thread is. -/
inductive Callback where
  /-- In none, and the socket has not opened. -/
  | connecting
  /-- In `_handle_open`, before it sets the connection event. -/
  | opening
  | opened
  /-- In none, with an open socket. -/
  | serving
  /-- In `inject_message` with an authentication that was accepted, before it sets the event. -/
  | answered
  | authenticated
  /-- In `_resubscribe_active`, with the handler it found and the builders it has to send. -/
  | resubscribing (handler : Option ℕ) (subs : List WebSocketBuilder)
  /-- After `_handle_close`. -/
  | closed
  deriving DecidableEq

/-- Where `_run_connection_loop` is. -/
inductive ConnectionThread where
  /-- At the top of its loop, or asleep before it. -/
  | idle
  /-- The events are cleared. -/
  | cleared
  /-- In `run_forever`. -/
  | running (socket : ℕ) (callback : Callback)
  deriving DecidableEq

/-- A call of `subscribe` or `unsubscribe`, between its accesses. -/
inductive ServiceCall where
  | subscribing (builder : WebSocketBuilder)
  | waitingForConnection (builder : WebSocketBuilder)
  | waitingForAuth (builder : WebSocketBuilder)
  | sending (builder : WebSocketBuilder)
  | unsubscribing (builder : WebSocketBuilder)
  | returned
  deriving DecidableEq

structure WebSocketService where
  activeSubscriptions : Dict String WebSocketBuilder
  connections : SubscriptionVisibility → Option ℕ
  connectionEvents : SubscriptionVisibility → Bool
  /-- `_auth_events` has one for the private connection only. -/
  authEvent : Bool
  threads : SubscriptionVisibility → ConnectionThread
  sockets : List Socket
  calls : List ServiceCall

inductive ServiceAction where
  /-- A connection thread goes on. -/
  | thread (visibility : SubscriptionVisibility)
  /-- The socket of a connection thread opens. -/
  | opens (visibility : SubscriptionVisibility)
  | authResponse (visibility : SubscriptionVisibility) (code : ℤ)
  | heartbeat (visibility : SubscriptionVisibility)
  /-- `run_forever` calls `_handle_close`. -/
  | closes (visibility : SubscriptionVisibility)
  /-- `run_forever` returns or raises. -/
  | ends (visibility : SubscriptionVisibility)
  /-- The network closes a socket. -/
  | drop (socket : ℕ)
  | subscribe (builder : WebSocketBuilder)
  | unsubscribe (builder : WebSocketBuilder)
  /-- A call goes on. -/
  | call (i : ℕ)
  /-- The wait of a call times out. -/
  | timeout (i : ℕ)
  deriving DecidableEq

namespace WebSocketService

/-- After `connect`. -/
def connected : WebSocketService where
  activeSubscriptions := Dict.empty
  connections := fun _ => none
  connectionEvents := fun _ => false
  authEvent := false
  threads := fun _ => .idle
  sockets := []
  calls := []

def setThread (s : WebSocketService) (visibility : SubscriptionVisibility)
    (thread : ConnectionThread) : WebSocketService :=
  { s with threads := Function.update s.threads visibility thread }

def setConnection (s : WebSocketService) (visibility : SubscriptionVisibility)
    (connection : Option ℕ) : WebSocketService :=
  { s with connections := Function.update s.connections visibility connection }

def setConnectionEvent (s : WebSocketService) (visibility : SubscriptionVisibility)
    (isSet : Bool) : WebSocketService :=
  { s with connectionEvents := Function.update s.connectionEvents visibility isSet }

/-- Set or clear the authentication event of a visibility, if it has one. -/
def setAuthEvent (s : WebSocketService) (visibility : SubscriptionVisibility) (isSet : Bool) :
    WebSocketService :=
  { s with authEvent := if visibility = .private then isSet else s.authEvent }

def setCall (s : WebSocketService) (i : ℕ) (call : ServiceCall) : WebSocketService :=
  { s with calls := s.calls.set i call }

def modifySocket (s : WebSocketService) (socket : ℕ) (f : Socket → Socket) : WebSocketService :=
  { s with sockets := s.sockets.modify socket f }

/-- `send` of a handler that may not be there. -/
def send (s : WebSocketService) (handler : Option ℕ) (frame : Frame) : WebSocketService :=
  { s with
    sockets := handler.elim s.sockets fun socket => s.sockets.modify socket (·.send frame) }

/-- `_resubscribe_active` up to its loop. -/
def resubscribeActive (s : WebSocketService) (visibility : SubscriptionVisibility)
    (socket : ℕ) : WebSocketService :=
  s.setThread visibility
    (.running socket (.resubscribing (s.connections visibility) s.activeSubscriptions.values))

/-- The next access of a connection thread.

    The thread alternates between its own loop and the callbacks that `run_forever` makes in it.
    What it looks up (the active builders, its handler) it keeps, while the calls of other threads
    go on. -/
def stepThread (s : WebSocketService) (visibility : SubscriptionVisibility) : WebSocketService :=
  match s.threads visibility with
  | .idle =>
    -- both events of the connection are cleared, where it has both
    ((s.setConnectionEvent visibility false).setAuthEvent visibility false).setThread visibility
      .cleared
  | .cleared =>
    -- the new socket is in `_connections` before it runs
    let handler : Socket := ⟨visibility, false, []⟩
    ({ s with sockets := s.sockets ++ [handler] }.setConnection visibility
      (some s.sockets.length)).setThread visibility (.running s.sockets.length .connecting)
  -- `_handle_open`
  | .running socket .opening =>
    (s.setConnectionEvent visibility true).setThread visibility (.running socket .opened)
  | .running socket .opened =>
    match visibility with
    | .private =>
      (s.send (s.connections .private) .auth).setThread .private (.running socket .serving)
    | .public => s.resubscribeActive .public socket
  -- `inject_message`, on the answer to the authentication
  | .running socket .answered =>
    (s.setAuthEvent visibility true).setThread visibility (.running socket .authenticated)
  | .running socket .authenticated => s.resubscribeActive visibility socket
  -- the loop of `_resubscribe_active`, over the builders it has found
  | .running socket (.resubscribing handler (builder :: subs)) =>
    (if builder.visibility = visibility then s.send handler (.subscribe builder.key)
      else s).setThread visibility (.running socket (.resubscribing handler subs))
  | .running socket (.resubscribing _ []) => s.setThread visibility (.running socket .serving)
  -- here the thread is in `run_forever`, and the network moves it
  | .running _ .connecting => s
  | .running _ .serving => s
  | .running _ .closed => s

/-- The next access of a call.

    A wait goes on only once its event is set; `stepTimeout` is the other way out of it. -/
def stepCall (s : WebSocketService) (i : ℕ) : WebSocketService :=
  match s.calls[i]? with
  | some (.subscribing builder) =>
    -- the builder is active from here on, whatever becomes of the call
    { s with activeSubscriptions := s.activeSubscriptions.set builder.key builder }.setCall i
      (.waitingForConnection builder)
  | some (.waitingForConnection builder) =>
    if s.connectionEvents builder.visibility then
      s.setCall i
        (if builder.visibility = .private then .waitingForAuth builder else .sending builder)
    else s
  -- only subscriptions of the private connection wait for it
  | some (.waitingForAuth builder) => if s.authEvent then s.setCall i (.sending builder) else s
  | some (.sending builder) =>
    (s.send (s.connections builder.visibility) (.subscribe builder.key)).setCall i .returned
  -- out of the active ones, and off the connection if there is one
  | some (.unsubscribing builder) =>
    ({ s with activeSubscriptions := s.activeSubscriptions.erase builder.key }.send
      (s.connections builder.visibility) (.unsubscribe builder.key)).setCall i .returned
  | some .returned => s
  | none => s

/-- A wait that ends before its event is set: `subscribe` gives up without a connection, and goes
    on without an authentication. -/
def stepTimeout (s : WebSocketService) (i : ℕ) : WebSocketService :=
  match s.calls[i]? with
  | some (.waitingForConnection builder) =>
    if s.connectionEvents builder.visibility then s else s.setCall i .returned
  | some (.waitingForAuth builder) => if s.authEvent then s else s.setCall i (.sending builder)
  | _ => s

/-- One step of the service: of a connection thread, of the network, or of a call.  A step that is
    not possible in the state leaves it as it is. -/
def step (s : WebSocketService) : ServiceAction → WebSocketService
  | .thread visibility => s.stepThread visibility
  | .opens visibility =>
    match s.threads visibility with
    | .running socket .connecting =>
      (s.modifySocket socket Socket.opened).setThread visibility (.running socket .opening)
    | _ => s
  -- any other code than zero is logged
  | .authResponse visibility code =>
    match s.threads visibility with
    | .running socket .serving =>
      if code = 0 then
        (s.modifySocket socket Socket.accept).setThread visibility (.running socket .answered)
      else s
    | _ => s
  | .heartbeat visibility =>
    match s.threads visibility with
    | .running _ .serving => s.send (s.connections visibility) .respondHeartbeat
    | _ => s
  | .closes visibility =>
    match s.threads visibility with
    | .running socket .connecting | .running socket .serving =>
      (((s.modifySocket socket Socket.closed).setAuthEvent visibility false).setConnection
        visibility none).setThread visibility (.running socket .closed)
    | _ => s
  -- after `run_forever` the loop takes the connection out
  | .ends visibility =>
    match s.threads visibility with
    | .running socket .connecting | .running socket .serving | .running socket .closed =>
      ((s.modifySocket socket Socket.closed).setConnection visibility none).setThread visibility
        .idle
    | _ => s
  | .drop socket => s.modifySocket socket Socket.closed
  | .subscribe builder => { s with calls := s.calls ++ [.subscribing builder] }
  | .unsubscribe builder => { s with calls := s.calls ++ [.unsubscribing builder] }
  | .call i => s.stepCall i
  | .timeout i => s.stepTimeout i

end WebSocketService

end CryptoTrading.Exchange

import XorcNotifications.Lib.Executor
import XorcNotifications.Lib.KeyedTable
import XorcNotifications.Lib.TextSearch
import XorcNotifications.Common.World

/-!
# Request consumer

`src/common/kafka/request_consumer.rs`: the trait every service implements, the
closure that handles one message of the input topic, the closure that handles one
message of the configuration topic, and the loops around the two.

The request loop and the tasks it spawns share one thread.  `Session` is the state of
that thread together with the tenant table and the world, and a `HandlerCall` is one
step of it.  The configuration loop runs on a thread of its own and reaches a session
through `HandlerCall.config`.
-/

namespace XorcNotifications

open Executors KeyedTables

/-! ## The handler trait -/

/-- `trait EventHandler`.  `Entry` is what the service keeps for a tenant, `Call` what it
    asks its provider, `Event` what the outside reports to a call in flight and `Clients`
    how the construction of a provider client turns out. -/
structure EventHandler where
  Entry : Type
  Clients : Type
  Event : Type
  Call : Type
  accepts : PushNotification → Bool
  handleNotification : Table String Entry → Option Bytes → PushNotification →
    Reaction Event (World Call)
  handleHttp : Option Bytes → HttpRequest → Reaction Event (World Call)
  handleConfig : Clients → String → Option Application →
    Table String Entry × World Call → Table String Entry × World Call

/-- One step of a session: a call of a handler function, a poll of a spawned future, or a
    message that reaches no handler function and leaves at most a log record. -/
inductive HandlerCall (H : EventHandler) where
  | notification (key : Option Bytes) (event : PushNotification)
  | http (key : Option Bytes) (event : HttpRequest)
  | config (clients : H.Clients) (id : String) (application : Option Application)
  | poll (task : Nat) (event : Option H.Event)
  | ignored (record : Option LogRecord)

structure Session (H : EventHandler) where
  tenants : Table String H.Entry
  executor : Executor H.Event (World H.Call)

namespace HandlerCall

variable {H : EventHandler}

/-- What the call is to the executor.  Only `config` comes from another thread. -/
def toStep (tenants : Table String H.Entry) : HandlerCall H → Step H.Event (World H.Call)
  | .notification key event => .react (H.handleNotification tenants key event)
  | .http key event => .react (H.handleHttp key event)
  | .config clients id application =>
    .background fun w => (H.handleConfig clients id application (tenants, w)).2
  | .poll task event => .poll task event
  | .ignored record => .react ⟨fun w => w.logAll record.toList, .nothing⟩

end HandlerCall

namespace Session

variable {H : EventHandler}

def start (H : EventHandler) : Session H := ⟨∅, Executor.start World.init⟩

def world (s : Session H) : World H.Call := s.executor.world

def nextTenants (s : Session H) : HandlerCall H → Table String H.Entry
  | .config clients id application => (H.handleConfig clients id application (s.tenants, s.world)).1
  | _ => s.tenants

def step (s : Session H) (call : HandlerCall H) : Session H :=
  ⟨s.nextTenants call, s.executor.step (call.toStep s.tenants)⟩

def run (s : Session H) (calls : List (HandlerCall H)) : Session H := calls.foldl step s

end Session

/-! ## The messages -/

structure BorrowedMessage where
  key : Option Bytes
  payload : Option Bytes
deriving DecidableEq

/-- `parse_from_bytes` at the types the consumer decodes. -/
structure Protobuf where
  parseRequestWrapper : Bytes → Option RequestWrapper
  parsePushNotification : Bytes → Option PushNotification
  parseHttpRequest : Bytes → Option HttpRequest
  parseApplication : Bytes → Option Application

inductive Panic where
  | indexOutOfBounds
deriving DecidableEq

namespace RequestConsumer

variable (pb : Protobuf)

/-! ## The input topic -/

section Requests

variable (H : EventHandler)

def handlePush (msg : BorrowedMessage) : HandlerCall H :=
  match msg.payload.bind pb.parsePushNotification with
  -- What is not accepted leaves only a debug record.
  | some event => if H.accepts event then .notification msg.key event else .ignored none
  | none => .ignored (some ⟨.error, "Error parsing a PushNotification event", []⟩)

def handleHttp (msg : BorrowedMessage) : HandlerCall H :=
  match msg.payload.bind pb.parseHttpRequest with
  | some event => .http msg.key event
  | none => .ignored none

def processRequest (msg : BorrowedMessage) : HandlerCall H :=
  match msg.payload.bind pb.parseRequestWrapper with
  | some decoder =>
    if decoder.getHeader.getFieldType = "notification.PushNotification" then handlePush pb H msg
    else if decoder.getHeader.getFieldType = "http.HttpRequest" then handleHttp pb H msg
    -- Every other type is invalid, and skipped.
    else .ignored none
  | none => .ignored (some ⟨.error, "Invalid RPC request", []⟩)

/-- What happens to a service while it runs: an item of the input stream, an update of the
    tenant table by the configuration thread, or a poll of a spawned future. -/
inductive Input where
  | item (result : Except String BorrowedMessage)
  | config (clients : H.Clients) (id : String) (application : Option Application)
  | poll (task : Nat) (event : Option H.Event)

/-- `handler` drops receive errors and passes every message to the closure. -/
def Input.toCall : Input H → HandlerCall H
  | .item (.ok msg) => processRequest pb H msg
  | .item (.error e) => .ignored (some ⟨.warn, "Error while receiving from Kafka: " ++ e, []⟩)
  | .config clients id application => .config clients id application
  | .poll task event => .poll task event

/-- The state of `handle_requests` before its control channel has fired. -/
structure State where
  session : Session H
  -- The messages whose offsets are stored for the next commit.
  stored : List BorrowedMessage

def State.start : State H := ⟨.start H, []⟩

variable {H} in
/-- A message that is taken from the stream has its offset stored. -/
def State.step (s : State H) (input : Input H) : State H :=
  { session := s.session.step (input.toCall pb H)
    -- A thread that has panicked takes nothing from the stream any more.
    stored := match input with
      | .item (.ok msg) => if s.session.executor.halted then s.stored else s.stored ++ [msg]
      | _ => s.stored }

/-- `handle_requests` up to some moment before control fires. -/
def handleRequests (inputs : List (Input H)) : State H := inputs.foldl (State.step pb) (State.start H)

/-- What is left when `handle_requests` has returned. -/
structure Stopped where
  world : World H.Call
  committed : List BorrowedMessage
  -- The futures that were still in the runtime, dropped with it.
  dropped : List (Task H.Event (World H.Call))

variable {H} in
/-- `.select2(control).then(commit)`: when control fires, `block_on` returns after the
    commit.  A failed commit is unwrapped and a halted thread is gone, so neither returns. -/
def State.stop (s : State H) (commitOk : Bool) : Option (Stopped H) :=
  if s.session.executor.halted then none
  else if commitOk then some ⟨s.session.world, s.stored, s.session.executor.tasks⟩
  else none

end Requests

/-! ## The configuration topic -/

-- `[A-Z0-9]`
def upperOrDigit : RegularExpression Char :=
  TextSearch.oneOf "ABCDEFGHIJKLMNOPQRSTUVWXYZ0123456789".toList

/-- `[A-Z0-9]{8}-[A-Z0-9]{4}-[A-Z0-9]{4}-[A-Z0-9]{4}-[A-Z0-9]{12}`. -/
def upperUuid : RegularExpression Char :=
  upperOrDigit ^ 8 * .char '-' * upperOrDigit ^ 4 * .char '-' * upperOrDigit ^ 4 * .char '-' *
    upperOrDigit ^ 4 * .char '-' * upperOrDigit ^ 12

/-- `APP_KEY_RE`.  The bar is not escaped, so it separates two alternatives. -/
def appKeyRe : RegularExpression Char := TextSearch.literal "application".toList + upperUuid

/-- `RequestConsumer::handle_config`: the arguments it passes to the handler. -/
def handleConfig (msgId : String) (msg : Option BorrowedMessage) : String × Option Application :=
  (msgId, (msg.bind (·.payload)).bind pb.parseApplication)

/-- The closure of `handle_configs`: a panic, or the arguments of the call of
    `EventHandler::handle_config` it makes, if it makes one. -/
def configCall (msg : BorrowedMessage) : Except Panic (Option (String × Option Application)) :=
  match msg.key.bind String.fromUTF8? with
  | some key =>
    if TextSearch.isMatch appKeyRe key.toList then
      -- The index `[1]` into the segments of the key.
      match (key.toList.splitOn '|')[1]? with
      | some segment =>
        let applicationId := String.ofList segment
        match msg.payload.bind pb.parseRequestWrapper with
        | some decoder =>
          if decoder.getHeader.getFieldType = "application.Application" then
            .ok (some (handleConfig pb applicationId (some msg)))
          else .ok none
        -- No payload, or one that is no wrapper: both are a null configuration here.
        | none => .ok (some (handleConfig pb applicationId none))
      | none => .error .indexOutOfBounds
    else .ok none
  | none => .ok none

section Configs

variable {H : EventHandler}

/-- The state the configuration thread works on: the tenant table and the world. -/
abbrev ConfigState (H : EventHandler) := Table String H.Entry × World H.Call

def ConfigState.start (H : EventHandler) : ConfigState H := (∅, World.init)

/-- One message of the configuration topic, with the way client construction turns out
    while it is handled. -/
def processConfig (s : ConfigState H) (input : H.Clients × BorrowedMessage) :
    Except Panic (ConfigState H) :=
  match configCall pb input.2 with
  | .ok (some (id, application)) => .ok (H.handleConfig input.1 id application s)
  | .ok none => .ok s
  | .error panic => .error panic

/-- `handle_configs` on a finite sequence of messages. -/
def handleConfigs (s : ConfigState H) : List (H.Clients × BorrowedMessage) → Except Panic (ConfigState H)
  | [] => .ok s
  | input :: inputs =>
    match processConfig pb s input with
    | .ok next => handleConfigs next inputs
    | .error panic => .error panic

end Configs

end RequestConsumer

end XorcNotifications

import XorcNotifications.Common.Events

/-!
# Logger

What `src/common/logger.rs` makes of an event in a log record.  A record is its level,
its message and the key-value pairs in the order in which they are given.  Debug
records are not modelled.
-/

namespace XorcNotifications

inductive LogLevel where
  | info
  | warn
  | error
deriving DecidableEq

inductive LogValue where
  | str (value : String)
  | bool (value : Bool)
  | none
deriving DecidableEq

abbrev LogPairs := List (String × LogValue)

structure LogRecord where
  level : LogLevel
  message : String
  pairs : LogPairs
deriving DecidableEq

/-- `impl KV for PushNotification`. -/
def PushNotification.serialize (e : PushNotification) : LogPairs :=
  [("device_token", .str e.deviceToken),
    ("universe", .str e.universeId),
    ("correlation_id", .str e.getHeader.getCorrelationId)]

/-- `impl slog::Value for HttpResponse`. -/
def HttpResponse.serialize (r : HttpResponse) : LogPairs :=
  match r.payload with
  | some payload => [("status_code", .str (toString payload.statusCode))]
  | none => [("status_code", .str (r.connectionError.getD .timeout).debug)]

/-- `replace("\"", "\\\"")`. -/
def escapeQuotes (s : String) : String :=
  String.ofList (s.toList.flatMap fun c => if c = '"' then ['\\', '"'] else [c])

/-- The command line that repeats the request. -/
def HttpRequest.curl (e : HttpRequest) : String :=
  let curl := "curl -X " ++ e.requestType.asRef ++ " "
  let curl := match e.body with
    | some body => curl ++ "--data \"" ++ escapeQuotes body ++ "\" "
    | none => curl
  let curl := e.headers.entries.foldl
    (fun curl header => curl ++ "-H \"" ++ header.1 ++ ": " ++ header.2 ++ "\" ") curl
  let curl := curl ++ e.uri
  if e.params.isEmpty then curl
  else e.params.entries.foldl (fun curl param => curl ++ param.1 ++ "=" ++ param.2) (curl ++ "?")

/-- `impl slog::Value for HttpRequest`. -/
def HttpRequest.serialize (e : HttpRequest) : LogPairs :=
  [("correlation_id", .str e.getHeader.getCorrelationId),
    ("request_type", .str e.requestType.asRef),
    ("request_body", .str e.getBody),
    ("timeout", .str (toString e.timeout)),
    ("curl", .str e.curl)]

/-- `impl KV for Application`. -/
def Application.serialize (a : Application) : LogPairs :=
  ("app_id", .str a.id) ::
    match a.organization with
    | some organization => [("organization", .str organization)]
    | none => []

end XorcNotifications

import XorcNotifications.Common.RequestConsumer
import XorcNotifications.HttpRequester.Requester

/-!
# HTTP requester: producer and handler

`src/http_requester/producer.rs` and `src/http_requester/consumer.rs`.  `topic` is the
output topic of the configuration, to which the producer publishes.
-/

namespace XorcNotifications.HttpRequester

open Futures Executors KeyedTables

abbrev World := XorcNotifications.World Call

/-! ## HttpResponseProducer -/

namespace HttpResponseProducer

/-- The fold over the headers of the answer. -/
def collectHeaders (headers : HeaderMap) : Finmap fun _ : String => String :=
  headers.intoIter.foldl (fun acc header =>
    match header.1 with
    | some key => acc.insert key (header.2.toStr.getD "")
    | none => acc) ∅

def responsePayload (result : HttpResult) : HttpResponsePayload where
  responseBody := (String.fromUTF8? result.body).getD "<BYTES>"
  statusCode := result.code.toInt32
  headers := collectHeaders result.headers

/-- The response that answers an event whose header was `header`. -/
def toResponse (header : Rpc.Request) (result : Except RequestError HttpResult) : HttpResponse :=
  let header := (Rpc.Response.new.setFieldType "http.HttpResponse").setRequest header
  let response := { HttpResponse.new with header := some header }
  match result with
  | .ok httpResult => { response with payload := some (responsePayload httpResult) }
  | .error .timeout => { response with connectionError := some .timeout }
  | .error .connection => { response with connectionError := some .connectionError }

def resultLabel : Except RequestError HttpResult → String
  | .ok httpResult => httpResult.code.asStr
  | .error .timeout => "timeout"
  | .error .connection => "connection"

def resultRecord : Except RequestError HttpResult → LogLevel × String
  | .ok _ => (.info, "Successful HTTP request")
  | .error .timeout => (.error, "HTTP request timeout")
  | .error .connection => (.error, "HTTP request connection error")

/-- The record is written after the header has been taken out of the event. -/
def respond (topic : String) (key : Option Bytes) (event : HttpRequest)
    (result : Except RequestError HttpResult) (w : World) : World :=
  let (header, event) := event.takeHeader
  let response := toResponse header result
  let w := w.countCallback (resultLabel result)
  let w := w.log (resultRecord result).1 (resultRecord result).2 (event.serialize ++ response.serialize)
  w.publish topic key (.httpResponse response)

end HttpResponseProducer

/-! ## HttpRequestHandler -/

namespace HttpRequestHandler

def accepts (_ : PushNotification) : Bool := false

def handleNotification (_ : Option Bytes) (_ : PushNotification) : Reaction NetEvent World where
  now w := w.log .warn "We don't handle push notification events here" []
  leaves := .nothing

section Http

variable (crates : Crates) (topic : String)

/-- The closure that runs when the exchange has ended. -/
def onResult (key : Option Bytes) (event : HttpRequest) (result : Except RequestError HttpResult)
    (w : World) : World :=
  HttpResponseProducer.respond topic key event result w.decInflight

/-- The gauge has gone up before the request is built. -/
def handleHttp (key : Option Bytes) (event : HttpRequest) : Reaction NetEvent World :=
  match Requester.request crates event with
  | some call =>
    { now := fun w => w.incInflight.startCall call
      leaves := .task (Requester.exchange.map (onResult topic key event)) }
  | none => { now := fun w => w.incInflight, leaves := .panic }

end Http

end HttpRequestHandler

/-- `impl EventHandler for HttpRequestHandler`.  It keeps nothing for a tenant and skips
    every configuration. -/
abbrev httpRequestHandler (crates : Crates) (topic : String) : EventHandler where
  Entry := Empty
  Clients := Unit
  Event := NetEvent
  Call := Call
  accepts := HttpRequestHandler.accepts
  handleNotification _ := HttpRequestHandler.handleNotification
  handleHttp := HttpRequestHandler.handleHttp crates topic
  handleConfig _ _ _ s := s

end XorcNotifications.HttpRequester

import XorcNotifications.Lib.Future
import XorcNotifications.Common.Events

/-!
# HTTP requester: the request

`src/http_requester/requester.rs` over the `http`, `hyper` and `tokio_timer` crates.  The
exchange is driven by what happens on the network and on the timer; the order of these
events is arbitrary.
-/

namespace XorcNotifications.HttpRequester

open Futures

/-! ## http -/

/-- The checks of the `http` crate on what a request is built from. -/
structure Crates where
  validUri : String → Bool
  validHeaderName : String → Bool
  validHeaderValue : String → Bool

inductive BuilderError where
  | invalidUri
  | invalidHeaderName
  | invalidHeaderValue
deriving DecidableEq

structure RequestParts where
  method : String
  uri : String
  headers : List (String × String)
deriving DecidableEq

structure Request where
  parts : RequestParts
  body : Bytes
deriving DecidableEq

/-- `http::request::Builder`: once an invalid part has been given, it holds that error. -/
abbrev Builder := Except BuilderError RequestParts

namespace Builder

variable (crates : Crates)

def new : Builder := .ok ⟨"GET", "/", []⟩

def method (builder : Builder) (verb : HttpVerb) : Builder :=
  builder.map fun parts => { parts with method := verb.asRef }

def header (builder : Builder) (name value : String) : Builder :=
  builder.bind fun parts =>
    if crates.validHeaderName name = false then .error .invalidHeaderName
    else if crates.validHeaderValue value = false then .error .invalidHeaderValue
    else .ok { parts with headers := parts.headers ++ [(name, value)] }

def uri (builder : Builder) (uri : String) : Builder :=
  builder.bind fun parts =>
    if crates.validUri uri = false then .error .invalidUri else .ok { parts with uri := uri }

def body (builder : Builder) (body : Bytes) : Except BuilderError Request :=
  builder.map fun parts => ⟨parts, body⟩

end Builder

structure StatusCode where
  code : UInt16
deriving DecidableEq

def StatusCode.asStr (s : StatusCode) : String := toString s.code.toNat

def StatusCode.toInt32 (s : StatusCode) : Int32 := .ofNat s.code.toNat

abbrev HeaderValue := Bytes

/-- `HeaderValue::to_str`: the text, if it is visible ASCII. -/
def HeaderValue.toStr (value : HeaderValue) : Option String :=
  if value.toList.all fun b => (32 ≤ b && b < 127) || b = 9 then String.fromUTF8? value else none

/-- The names of a response, each with its values, of which there is at least one. -/
structure HeaderMap where
  groups : List (String × HeaderValue × List HeaderValue)
  nodup : (groups.map Prod.fst).Nodup
deriving DecidableEq

/-- `HeaderMap::into_iter`: the name comes with the first of its values only. -/
def HeaderMap.intoIter (headers : HeaderMap) : List (Option String × HeaderValue) :=
  headers.groups.flatMap fun group =>
    (some group.1, group.2.1) :: group.2.2.map fun value => (none, value)

/-! ## The exchange -/

inductive NetEvent where
  | connectionFailed
  | head (status : StatusCode) (headers : HeaderMap)
  | chunk (bytes : Bytes)
  | bodyComplete
  | bodyFailed
  | timerExpired
  | timerFailed

structure ResponseHead where
  status : StatusCode
  headers : HeaderMap

/-- `Client::request`: the head of the response, or a failed connection. -/
def clientRequest : Future NetEvent (Except Unit ResponseHead) :=
  Future.first fun
    | .head status headers => some (.ok ⟨status, headers⟩)
    | .connectionFailed => some (.error ())
    | _ => none

/-- `body.concat2()`: the chunks of the body up to its end. -/
def concat2 : Future NetEvent (Except Unit Bytes) :=
  Future.scan (fun received event =>
    match event with
    | .chunk bytes => .inl (received ++ bytes)
    | .bodyComplete => .inr (.ok received)
    | .bodyFailed | .connectionFailed => .inr (.error ())
    -- The timer has no say once the head is there.
    | _ => .inl received) ByteArray.empty

def sleep : Future NetEvent (Except Unit Unit) :=
  Future.first fun
    | .timerExpired => some (.ok ())
    | .timerFailed => some (.error ())
    | _ => none

/-! ## Requester -/

inductive RequestError where
  | timeout
  | connection
deriving DecidableEq

structure HttpResult where
  code : StatusCode
  body : Bytes
  headers : HeaderMap
deriving DecidableEq

/-- What is asked of the network: the request and the milliseconds of its timer. -/
structure Call where
  request : Request
  timeout : UInt64
deriving DecidableEq

namespace Requester

variable (crates : Crates)

def uriWithParams (uri : String) (params : StringMap) : String :=
  params.entries.foldl (fun acc param => acc ++ param.1 ++ "=" ++ param.2) (uri ++ "?")

/-- The builder calls at the head of `Requester::request`. -/
def buildRequest (event : HttpRequest) : Except BuilderError Request :=
  let builder := Builder.new.method event.requestType
  let builder := event.headers.entries.foldl
    (fun builder header => builder.header crates header.1 header.2) builder
  let builder :=
    if event.params.isEmpty then builder.uri crates event.uri
    else builder.uri crates (uriWithParams event.uri event.params)
  builder.body event.getBody.toUTF8

/-- `self.timer.sleep(..).then(|_| err(RequestError::Timeout))`. -/
def timeout : Future NetEvent (Except RequestError ResponseHead) :=
  sleep.bind fun _ => Future.ready (.error .timeout)

/-- The future that `Requester::request` returns. -/
def exchange : Future NetEvent (Except RequestError HttpResult) :=
  -- The second `map_err` stands after `select`, so it covers both of its errors.
  (((clientRequest.mapErr fun _ => RequestError.connection).select timeout).mapErr
    fun _ => RequestError.timeout).andThen fun response =>
      (concat2.mapErr fun _ => RequestError.connection).mapOk fun chunk =>
        ⟨response.status, chunk, response.headers⟩

/-- `Requester::request`: the call it starts.  It is `none` where the `unwrap` of the built
    request panics. -/
def request (event : HttpRequest) : Option Call :=
  match buildRequest crates event with
  | .ok request => some ⟨request, event.timeout⟩
  | .error _ => none

end Requester

end XorcNotifications.HttpRequester

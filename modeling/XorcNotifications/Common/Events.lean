import Mathlib.Data.Finmap

/-!
# Events

The protobuf messages of `src/common/events`.  Their Rust types are generated from
schemas that are not part of the repository, so a message is modelled by what the
code reads and writes of it: a field with a `has_` accessor is an `Option`, and a
field that is only read with its getter holds the value the getter returns.
-/

namespace XorcNotifications

abbrev Bytes := ByteArray

/-- The comparison of bytes, the same in every module. -/
instance : DecidableEq Bytes := ByteArray.instDecidableEq

/-- A `HashMap<String, String>` together with the order in which it is iterated. -/
structure StringMap where
  entries : List (String × String)
  nodup : (entries.map Prod.fst).Nodup
deriving DecidableEq

namespace StringMap

def empty : StringMap := ⟨[], List.nodup_nil⟩

def isEmpty (m : StringMap) : Bool := m.entries.isEmpty

end StringMap

/-! ## rpc -/

namespace Rpc

/-- The header of a request.  `otherFields` stands for the fields that no service reads
    but that travel with the header into the response. -/
structure Request where
  fieldType : Option String
  correlationId : Option String
  otherFields : Bytes
deriving DecidableEq

def Request.new : Request := ⟨none, none, .empty⟩

def Request.getFieldType (r : Request) : String := r.fieldType.getD ""

def Request.getCorrelationId (r : Request) : String := r.correlationId.getD ""

structure Response where
  fieldType : Option String
  request : Option Request
deriving DecidableEq

def Response.new : Response := ⟨none, none⟩

def Response.setFieldType (r : Response) (fieldType : String) : Response :=
  { r with fieldType := some fieldType }

def Response.setRequest (r : Response) (request : Request) : Response :=
  { r with request := some request }

end Rpc

/-- The part every event has in common; it tells which message a payload holds. -/
structure RequestWrapper where
  header : Option Rpc.Request

def RequestWrapper.getHeader (w : RequestWrapper) : Rpc.Request := w.header.getD .new

/-! ## Push notifications -/

structure AppleNotificationHeaders where
  apnsPriority : Option Int32
  apnsExpiration : Option Int64
  apnsTopic : Option String

def AppleNotificationHeaders.new : AppleNotificationHeaders := ⟨none, none, none⟩

structure AppleLocalizedAlert where
  title : String
  body : String
  titleLocKey : Option String
  titleLocArgs : List String
  actionLocKey : Option String
  launchImage : Option String
  locKey : Option String
  locArgs : List String
  mutableContent : Option Bool

structure CustomData where
  key : String
  body : String

structure AppleNotification where
  headers : Option AppleNotificationHeaders
  localized : Option AppleLocalizedAlert
  silent : Bool
  plain : String
  badge : Option UInt32
  sound : Option String
  category : Option String
  customData : Option CustomData

def AppleNotification.new : AppleNotification := ⟨none, none, false, "", none, none, none, none⟩

def AppleNotification.getHeaders (a : AppleNotification) : AppleNotificationHeaders :=
  a.headers.getD .new

structure GoogleLocalizedAlert where
  title : Option String
  tag : Option String
  body : Option String
  icon : Option String
  sound : Option String
  badge : Option String
  color : Option String
  clickAction : Option String
  bodyLocKey : Option String
  titleLocKey : Option String
  titleLocArgs : List String
  bodyLocArgs : List String
  data : StringMap

inductive GoogleNotificationPriority where
  | normal
  | high

structure GoogleNotification where
  localized : Option GoogleLocalizedAlert
  -- `get_message().get_data()`.
  messageData : StringMap
  registrationIds : List String
  collapseKey : Option String
  priority : GoogleNotificationPriority
  contentAvailable : Option Bool
  delayWhileIdle : Option Bool
  timeToLive : Option Int32
  restrictedPackageName : Option String
  dryRun : Option Bool

def GoogleNotification.new : GoogleNotification :=
  ⟨none, .empty, [], none, .normal, none, none, none, none, none⟩

structure WebPushNotification where
  auth : String
  p256dh : String
  payload : Option String
  ttl : Option Int32

def WebPushNotification.new : WebPushNotification := ⟨"", "", none, none⟩

/-- `universeId` is the field `universe`: the id of the tenant. -/
structure PushNotification where
  header : Option Rpc.Request
  universeId : String
  deviceToken : String
  apple : Option AppleNotification
  google : Option GoogleNotification
  web : Option WebPushNotification

namespace PushNotification

def getHeader (e : PushNotification) : Rpc.Request := e.header.getD .new

/-- Moves the header out of the event and leaves the event without one. -/
def takeHeader (e : PushNotification) : Rpc.Request × PushNotification :=
  (e.getHeader, { e with header := none })

def hasApple (e : PushNotification) : Bool := e.apple.isSome

def getApple (e : PushNotification) : AppleNotification := e.apple.getD .new

def hasGoogle (e : PushNotification) : Bool := e.google.isSome

def getGoogle (e : PushNotification) : GoogleNotification := e.google.getD .new

def hasWeb (e : PushNotification) : Bool := e.web.isSome

def getWeb (e : PushNotification) : WebPushNotification := e.web.getD .new

end PushNotification

inductive ResponseAction where
  | none
  | unsubscribeEntity
  | retry
deriving DecidableEq

structure PushResult where
  header : Option Rpc.Response
  responseAction : ResponseAction
deriving DecidableEq

def PushResult.new : PushResult := ⟨none, .none⟩

/-- `impl Into<PushResult> for (PushNotification, ResponseAction)`. -/
def PushResult.into (event : PushNotification) (responseAction : ResponseAction) : PushResult :=
  let header := (Rpc.Response.new.setFieldType "notification.PushResult").setRequest event.takeHeader.1
  { PushResult.new with header := some header, responseAction := responseAction }

/-! ## Application configuration -/

inductive ConnectionEndpoint where
  | production
  | sandbox
deriving DecidableEq

structure IosCertificate where
  pkcs12 : Bytes
  password : String
  endpoint : ConnectionEndpoint
  apnsTopic : String
deriving DecidableEq

structure IosToken where
  pkcs8 : Bytes
  keyId : String
  teamId : String
  endpoint : ConnectionEndpoint
  apnsTopic : String
deriving DecidableEq

structure IosConfig where
  enabled : Bool
  token : Option IosToken
  certificate : Option IosCertificate

structure AndroidConfig where
  enabled : Bool
  fcmApiKey : Option String

structure WebConfig where
  enabled : Bool
  fcmApiKey : Option String

structure Application where
  id : String
  organization : Option String
  iosConfig : Option IosConfig
  androidConfig : Option AndroidConfig
  webConfig : Option WebConfig

/-! ## HTTP requests -/

inductive HttpVerb where
  | get
  | post
  | put
  | delete
  | patch
  | options
deriving DecidableEq

/-- `impl AsRef<str> for HttpRequest_HttpVerb`. -/
def HttpVerb.asRef : HttpVerb → String
  | .get => "GET"
  | .post => "POST"
  | .put => "PUT"
  | .delete => "DELETE"
  | .patch => "PATCH"
  | .options => "OPTIONS"

structure HttpRequest where
  header : Option Rpc.Request
  requestType : HttpVerb
  uri : String
  headers : StringMap
  params : StringMap
  body : Option String
  timeout : UInt64
deriving DecidableEq

namespace HttpRequest

def getHeader (e : HttpRequest) : Rpc.Request := e.header.getD .new

def takeHeader (e : HttpRequest) : Rpc.Request × HttpRequest :=
  (e.getHeader, { e with header := none })

def getBody (e : HttpRequest) : String := e.body.getD ""

end HttpRequest

structure HttpResponsePayload where
  responseBody : String
  statusCode : Int32
  headers : Finmap fun _ : String => String
deriving DecidableEq

inductive SocketError where
  | timeout
  | connectionError
deriving DecidableEq

-- `{:?}`
def SocketError.debug : SocketError → String
  | .timeout => "Timeout"
  | .connectionError => "ConnectionError"

structure HttpResponse where
  header : Option Rpc.Response
  payload : Option HttpResponsePayload
  connectionError : Option SocketError
deriving DecidableEq

def HttpResponse.new : HttpResponse := ⟨none, none, none⟩

end XorcNotifications

import XorcNotifications.Apns2.Consumer
import XorcNotifications.Fcm.Consumer
import XorcNotifications.WebPush.Consumer
import XorcNotifications.HttpRequester.Consumer

/-!
# The four services

Every binary of the repository runs the same consumer around a handler of its own.
Three of them send push notifications for tenants; the fourth sends HTTP requests.
-/

namespace XorcNotifications

/-- What a service is given: the functions of other crates and its output topic. -/
structure Crates where
  protobuf : Protobuf
  apns2 : Apns2.Crates
  fcm : Fcm.Crates
  webPush : WebPush.Crates
  http : HttpRequester.Crates
  outputTopic : String

inductive PushService where
  | apns2
  | fcm
  | webPush
deriving DecidableEq

inductive Service where
  | push (service : PushService)
  | httpRequester
deriving DecidableEq

abbrev PushService.handler (crates : Crates) : PushService → EventHandler
  | .apns2 => Apns2.apnsHandler crates.apns2 crates.outputTopic
  | .fcm => Fcm.fcmHandler crates.fcm crates.outputTopic
  | .webPush => WebPush.webPushHandler crates.webPush crates.outputTopic

abbrev Service.handler (crates : Crates) : Service → EventHandler
  | .push service => service.handler crates
  | .httpRequester => HttpRequester.httpRequestHandler crates.http crates.outputTopic

/-! ## A sample environment

For runs on given inputs: every payload decodes to the same messages, the constructors of
other crates succeed, and a URI with a blank in it is rejected. -/

def sampleProtobuf (fieldType : String) (push : Option PushNotification) (http : Option HttpRequest)
    (application : Option Application) : Protobuf where
  parseRequestWrapper _ := some ⟨some { Rpc.Request.new with fieldType := some fieldType }⟩
  parsePushNotification _ := push
  parseHttpRequest _ := http
  parseApplication _ := application

def sampleCrates (protobuf : Protobuf) : Crates where
  protobuf := protobuf
  apns2 := ⟨fun _ => .error "expected value", .ok, fun text => text, fun _ => "ConnectionError"⟩
  fcm := ⟨fun _ => none⟩
  webPush := ⟨fun _ => none, fun _ => none, fun _ => "other", fun _ => "Other"⟩
  http := ⟨fun uri => !uri.isEmpty && uri.toList.all fun c => '!' ≤ c && c ≤ '~',
    fun name => !name.isEmpty, fun value => value.toList.all fun c => ' ' ≤ c && c ≤ '~'⟩
  outputTopic := "responses"

def sampleApplication (id : String) : Application where
  id := id
  organization := none
  iosConfig := none
  androidConfig := some ⟨true, some "key"⟩
  webConfig := none

def samplePush : PushNotification where
  header := none
  universeId := "A"
  deviceToken := "device"
  apple := none
  google := some .new
  web := none

def sampleHttp : HttpRequest where
  header := none
  requestType := .get
  uri := "http://host/"
  headers := .empty
  params := .empty
  body := none
  timeout := 1000

end XorcNotifications

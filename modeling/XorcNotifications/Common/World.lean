import XorcNotifications.Common.Logger

/-!
# The world of a service

What a service does to the outside: the metrics of `src/common/metrics.rs`, the log,
the calls it starts at its provider and the records it hands to `ResponseProducer`.
Gauges are integers, and the latency histogram is left out: it holds real times.
-/

namespace XorcNotifications

/-- A `CounterVec` over one label: the labels seen so far with their counts. -/
structure CounterVec where
  counters : List (String × Nat)
deriving DecidableEq

namespace CounterVec

def empty : CounterVec := ⟨[]⟩

-- A label that has not been seen starts at zero.
def incList (label : String) : List (String × Nat) → List (String × Nat)
  | [] => [(label, 1)]
  | (other, n) :: rest => if other = label then (other, n + 1) :: rest else (other, n) :: incList label rest

def inc (c : CounterVec) (label : String) : CounterVec := ⟨incList label c.counters⟩

/-- The sum over all labels. -/
def total (c : CounterVec) : Nat := c.counters.foldr (fun counter sum => counter.2 + sum) 0

end CounterVec

structure Metrics where
  callbacksCounter : CounterVec
  callbacksInflight : Int
  tokenConsumers : Int
  certificateConsumers : Int
  numberOfApplications : Int
deriving DecidableEq

def Metrics.zero : Metrics := ⟨.empty, 0, 0, 0, 0⟩

/-- The messages that are published, `&Message` in the source. -/
inductive ResponseMessage where
  | pushResult (result : PushResult)
  | httpResponse (response : HttpResponse)
deriving DecidableEq

/-- A record handed to the Kafka producer.  The payload is kept as the message whose
    bytes are sent; partition, timestamp and headers are always unset. -/
structure FutureRecord where
  topic : String
  key : Option Bytes
  payload : ResponseMessage
deriving DecidableEq

structure World (Call : Type) where
  metrics : Metrics
  logs : List LogRecord
  calls : List Call
  published : List FutureRecord

namespace World

variable {Call : Type}

def init : World Call := ⟨.zero, [], [], []⟩

def log (w : World Call) (level : LogLevel) (message : String) (pairs : LogPairs) :
    World Call :=
  { w with logs := w.logs ++ [⟨level, message, pairs⟩] }

def logAll (w : World Call) (records : List LogRecord) : World Call :=
  { w with logs := w.logs ++ records }

-- One operation for each metric.  The two counters of notifiers move up with a new
-- notifier and down when it is dropped.

def countCallback (w : World Call) (label : String) : World Call :=
  { w with metrics.callbacksCounter := w.metrics.callbacksCounter.inc label }

def incInflight (w : World Call) : World Call :=
  { w with metrics.callbacksInflight := w.metrics.callbacksInflight + 1 }

def decInflight (w : World Call) : World Call :=
  { w with metrics.callbacksInflight := w.metrics.callbacksInflight - 1 }

def addTokenConsumers (w : World Call) (n : Int) : World Call :=
  { w with metrics.tokenConsumers := w.metrics.tokenConsumers + n }

def addCertificateConsumers (w : World Call) (n : Int) : World Call :=
  { w with metrics.certificateConsumers := w.metrics.certificateConsumers + n }

def setNumberOfApplications (w : World Call) (n : Nat) : World Call :=
  { w with metrics.numberOfApplications := n }

def startCall (w : World Call) (call : Call) : World Call :=
  { w with calls := w.calls ++ [call] }

/-- `ResponseProducer::publish`.  What the delivery future still does afterwards has no
    effect on the service. -/
def publish (w : World Call) (topic : String) (key : Option Bytes)
    (event : ResponseMessage) : World Call :=
  { w with published := w.published ++ [⟨topic, key, event⟩] }

end World

end XorcNotifications

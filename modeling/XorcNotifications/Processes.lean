import XorcNotifications.Services

/-!
# Processes

What a process is started with, and how it asks for messages: `src/common/config.rs`,
`src/common/kafka/mod.rs`, the consumers that `src/common/kafka/request_consumer.rs` creates, the
`main.rs` of each service, and the configuration files of the repository.
-/

namespace XorcNotifications

/-! ## Configuration -/

namespace Kafka

structure Config where
  inputTopic : String
  configTopic : String
  outputTopic : String
  groupId : String
  brokers : String

end Kafka

/-- What `Config::parse` makes of the files there are.  Of any other file it panics. -/
abbrev ConfigFiles := String → Option Kafka.Config

namespace Service

/-- Where `main.rs` looks if there is no variable `CONFIG`. -/
def defaultConfig : Service → String
  | .push .apns2 => "./config/fcm.toml"
  | .push .fcm => "./config/fcm.toml"
  | .push .webPush => "./config/web_push.toml"
  | .httpRequester => "./config/http_requester.toml"

/-- `CONFIG` of `main.rs`. -/
def config (service : Service) (files : ConfigFiles) (env : Option String) : Option Kafka.Config :=
  files (env.getD service.defaultConfig)

/-- The configuration file in the chart of the service, under `deploy/`. -/
def chartConfig (groupPrefix endpoint : String) : Service → Kafka.Config
  | .push .apns2 =>
    ⟨"rpc.push-notification", "config.push-notification", "rpc.responses", groupPrefix ++ "-apns2", endpoint⟩
  | .push .fcm =>
    ⟨"rpc.push-notification", "config.push-notification", "rpc.responses", groupPrefix ++ "-fcm", endpoint⟩
  | .push .webPush =>
    ⟨"rpc.push-notification", "config.push-notification", "rpc.responses", groupPrefix ++ "-web_push", endpoint⟩
  | .httpRequester =>
    ⟨"rpc.http", "config.push-notification", "rpc.responses", groupPrefix ++ "-http-requester", endpoint⟩

end Service

/-- The files under `config/`. -/
def configFiles : ConfigFiles
  | "./config/apns2.toml" => some
    ⟨"rpc.push-notification", "config.push-notification", "rpc.responses", "test.consumers.apns", "kafka:9092"⟩
  | "./config/fcm.toml" => some
    ⟨"rpc.push-notification", "config.push-notification", "rpc.responses", "test.consumers.fcm", "kafka:9092"⟩
  | "./config/web_push.toml" => some
    ⟨"rpc.push-notification", "config.push-notification", "rpc.responses", "test.consumers.webpush", "kafka:9092"⟩
  | "./config/http_requester.toml" => some
    ⟨"rpc.http", "config.push-notification", "rpc.responses", "http-requester-test", "kafka:9092"⟩
  | _ => none

/-! ## Consumers -/

inductive Offset where
  | beginning

/-- How a consumer asks for messages: by topic, sharing it with the other consumers of its group, or
    by partition, each from an offset on. -/
inductive Subscription where
  | subscribe (topics : List String)
  | assign (partitions : List (String × Nat × Offset))

structure StreamConsumer where
  settings : List (String × String)
  subscription : Subscription

namespace RequestConsumer

/-- The consumer of `handle_configs`. -/
def configConsumer (config : Kafka.Config) : StreamConsumer where
  settings := [("group.id", config.groupId), ("bootstrap.servers", config.brokers),
    ("enable.auto.commit", "false"), ("auto.offset.reset", "earliest"), ("enable.partition.eof", "false")]
  subscription := .assign <| (List.range 12).map fun partition => (config.configTopic, partition, .beginning)

/-- The consumer of `handle_requests`. -/
def requestConsumer (config : Kafka.Config) : StreamConsumer where
  settings := [("group.id", config.groupId), ("bootstrap.servers", config.brokers),
    ("enable.auto.commit", "true"), ("auto.offset.reset", "latest"), ("enable.partition.eof", "false")]
  subscription := .subscribe [config.inputTopic]

end RequestConsumer

/-- The topics of which the consumer takes a share, each with the group it is a member of. -/
def StreamConsumer.memberships (consumer : StreamConsumer) : List (String × Option String) :=
  match consumer.subscription with
  | .subscribe topics => topics.map fun topic => (topic, consumer.settings.lookup "group.id")
  | .assign _ => []

/-- What the consumer has assigned to itself, of the partitions there are. -/
def StreamConsumer.assigned {α : Type} (consumer : StreamConsumer) (partitions : String → List (List α)) :
    List (List α) :=
  match consumer.subscription with
  | .subscribe _ => []
  | .assign assigned => assigned.filterMap fun (topic, partition, _) => (partitions topic)[partition]?

/-- Where the consumer begins in a partition of that length, if its group has committed no offset. -/
def StreamConsumer.place (consumer : StreamConsumer) (length : Nat) : Nat :=
  if consumer.settings.lookup "auto.offset.reset" = some "earliest" then 0 else length

/-! ## Processes -/

/-- A service that has been started. -/
structure Process where
  service : Service
  config : Kafka.Config

namespace Process

/-- `main.rs` of the service: it panics where there is no configuration. -/
def start (files : ConfigFiles) (env : Option String) (service : Service) : Option Process :=
  (service.config files env).map fun config => ⟨service, config⟩

/-- The consumers of the two threads. -/
def consumers (p : Process) : List StreamConsumer :=
  [RequestConsumer.requestConsumer p.config, RequestConsumer.configConsumer p.config]

/-- The topic that the process takes a share of, and the group it is a member of there. -/
def group (p : Process) : String × Option String := (p.config.inputTopic, some p.config.groupId)

theorem memberships_consumers (p : Process) : p.consumers.flatMap StreamConsumer.memberships = [p.group] := rfl

theorem filterMap_range_eq_take {α : Type} (l : List α) (n : Nat) :
    (List.range n).filterMap (l[·]?) = l.take n := by
  induction n with
  | zero => rfl
  | succ n inductionHypothesis =>
    rw [List.range_succ, List.filterMap_append, inductionHypothesis, List.take_add_one]
    cases atN : l[n]? <;> simp [atN]

/-- Of the configuration topic every process reads the first twelve partitions. -/
theorem assigned_consumers {α : Type} (p : Process) (partitions : String → List (List α)) :
    p.consumers.flatMap (·.assigned partitions) = (partitions p.config.configTopic).take 12 := by
  rw [← filterMap_range_eq_take, consumers, List.flatMap_cons, List.flatMap_singleton]
  exact List.filterMap_map ..

end Process

end XorcNotifications

import XorcNotifications.Lib.ConsumerGroups
import XorcNotifications.Processes
import XorcNotifications.Verified.Fleet
import XorcNotifications.Verified.Replay

/-!
# Several processes of each service

A process takes a share of its input topic together with the other processes of its group, and
every group gets all the messages.  Nothing but the configuration files says who is in a group
with whom.
-/

namespace XorcNotifications

open Compactions ConsumerGroups Interleavings RequestConsumer World

namespace Service

variable (crates : XorcNotifications.Crates) (service : Service)

/-- What a process of the service has published and what it still owes. -/
def accountedFor (inputs : List (Input (service.handler crates))) : Multiset Receipt :=
  (handleRequests crates.protobuf (service.handler crates) inputs).session.world.receipts +
    service.outstanding crates inputs

/-- What is owed for a message. -/
def answer (msg : BorrowedMessage) : Multiset Receipt := amount (service.owed crates msg)

theorem answers_coe (messages : List BorrowedMessage) :
    answers (service.answer crates) messages = (messages.filterMap (service.owed crates) : List Receipt) := by
  rw [answers_eq, Multiset.map_coe, Multiset.sum_coe, coe_filterMap_eq_sum_amount]
  rfl

variable {crates service}

theorem accountedFor_of_drained {inputs : List (Input (service.handler crates))}
    (drained : (handleRequests crates.protobuf (service.handler crates) inputs).session.executor.tasks = []) :
    service.accountedFor crates inputs =
      (handleRequests crates.protobuf (service.handler crates) inputs).session.world.receipts := by
  rw [accountedFor, outstanding, drained]
  exact add_zero _

theorem accountedFor_of_running {inputs : List (Input (service.handler crates))}
    (running : (handleRequests crates.protobuf (service.handler crates) inputs).session.executor.halted = false) :
    service.accountedFor crates inputs = answers (service.answer crates) (consumed inputs) := by
  rw [answers_coe]
  exact receipts_add_outstanding running

theorem accountedFor_eq_answers {push : PushService} (isPush : service = .push push)
    (inputs : List (Input (service.handler crates))) :
    service.accountedFor crates inputs = answers (Service.answer crates (.push push)) (consumed inputs) := by
  subst isPush
  exact accountedFor_of_running (PushService.running crates push inputs)

end Service

section Processes

def justTaking {H : EventHandler} (messages : List BorrowedMessage) : List (Input H) :=
  messages.map fun msg => .item (.ok msg)

theorem consumed_justTaking {H : EventHandler} (messages : List BorrowedMessage) :
    consumed (justTaking (H := H) messages) = messages := by
  rw [consumed, justTaking, List.filterMap_map]
  exact List.filterMap_some

variable {crates : Crates} {ι : Type} [Fintype ι] {processes : ι → Process}

variable (crates processes) in
/-- Each message of a topic has been taken by one process of every group that shares the topic. -/
def Delivered (messages : String → List BorrowedMessage)
    (inputs : (i : ι) → List (Input ((processes i).service.handler crates))) : Prop :=
  SharesOut (fun i => (processes i).group) Prod.fst (fun topic => (messages topic : Multiset BorrowedMessage))
    fun i => (consumed (inputs i) : Multiset BorrowedMessage)

variable (processes) in
def runs (service : PushService) : Finset ι := {i | (processes i).service = .push service}

theorem mem_runs {service : PushService} {i : ι} :
    i ∈ runs processes service ↔ (processes i).service = .push service := by simp [runs]

theorem sum_accountedFor (service : PushService)
    (inputs : (i : ι) → List (Input ((processes i).service.handler crates))) :
    ∑ i ∈ runs processes service, (processes i).service.accountedFor crates (inputs i) =
      ∑ i ∈ runs processes service,
        answers (Service.answer crates (.push service)) (consumed (inputs i) : Multiset BorrowedMessage) :=
  Finset.sum_congr rfl fun i member => Service.accountedFor_eq_answers (mem_runs.mp member) (inputs i)

/-- Whatever else happens to the processes, it is the messages they are given that count. -/
theorem answersOnce_iff_delivered [DecidableEq ι] (service : PushService) (topic : String) :
    AnswersOnce (fun i => (processes i).group) Prod.fst (Service.answer crates (.push service))
        (runs processes service) topic ↔
      ∀ messages inputs, Delivered crates processes messages inputs →
        ∑ i ∈ runs processes service, (processes i).service.accountedFor crates (inputs i) =
          ((messages topic).filterMap (Service.owed crates (.push service)) : List Receipt) := by
  constructor
  · intro once messages inputs delivered
    rw [sum_accountedFor, ← Service.answers_coe]
    exact once _ _ delivered
  · intro once messages taken shares
    -- The processes take their messages, and nothing else happens.
    have answered := once (fun t => (messages t).toList) (fun i => justTaking (taken i).toList)
    rw [sum_accountedFor, ← Service.answers_coe, Delivered] at answered
    simp only [consumed_justTaking, Multiset.coe_toList] at answered
    exact answered shares

end Processes

/-- However the broker shares the topics out, and whatever else happens to the processes, those of a
    push service answer each message of their topic once exactly if they are one consumer group. -/
theorem processes_answer_once_iff (crates : Crates) {ι : Type} [Fintype ι] [DecidableEq ι]
    (processes : ι → Process) (service : PushService) {topic : String}
    (read : ∀ i, (processes i).service = .push service → (processes i).config.inputTopic = topic)
    (accepted : ∃ msg, Service.owed crates (.push service) msg ≠ none) :
    (∀ messages inputs, Delivered crates processes messages inputs →
      ∑ i ∈ runs processes service, (processes i).service.accountedFor crates (inputs i) =
        ((messages topic).filterMap (Service.owed crates (.push service)) : List Receipt)) ↔
      ∃ i, ∀ j, (processes j).service = .push service ↔ (processes j).group = (processes i).group := by
  have answered : ∃ msg, Service.answer crates (.push service) msg ≠ 0 := by
    obtain ⟨msg, owes⟩ := accepted
    obtain ⟨receipt, owes⟩ := Option.ne_none_iff_exists'.mp owes
    exact ⟨msg, by simp [Service.answer, owes, amount]⟩
  have reads : ∀ i ∈ runs processes service, Prod.fst (processes i).group = topic := fun i member =>
    read i (mem_runs.mp member)
  rw [← answersOnce_iff_delivered, answersOnce_iff reads answered]
  simp only [mem_runs]
  constructor
  · rintro ⟨i, -, isGroup⟩
    exact ⟨i, isGroup⟩
  · rintro ⟨i, isGroup⟩
    exact ⟨i, (isGroup i).mpr rfl, isGroup⟩

/-! ## The charts -/

section Charts

variable {ι : Type} (services : ι → Service) (groupPrefix endpoint : String)

/-- Processes that are started by the charts of their services. -/
def charted (i : ι) : Process := ⟨services i, (services i).chartConfig groupPrefix endpoint⟩

/-- What the chart of the service adds to the prefix. -/
def groupSuffix : Service → String
  | .push .apns2 => "-apns2"
  | .push .fcm => "-fcm"
  | .push .webPush => "-web_push"
  | .httpRequester => "-http-requester"

theorem groupSuffix_injective {service service' : Service} (same : groupSuffix service = groupSuffix service') :
    service = service' := by
  rcases service with (_ | _ | _) | _ <;> rcases service' with (_ | _ | _) | _ <;> revert same <;> decide

theorem groupId_chartConfig (service : Service) :
    (service.chartConfig groupPrefix endpoint).groupId = groupPrefix ++ groupSuffix service := by
  rcases service with (_ | _ | _) | _ <;> rfl

theorem group_charted_eq_iff {i j : ι} :
    (charted services groupPrefix endpoint j).group = (charted services groupPrefix endpoint i).group ↔
      services j = services i := by
  constructor
  · intro same
    have groups := Option.some.inj (congrArg Prod.snd same)
    simp only [charted, groupId_chartConfig, String.append_right_inj] at groups
    exact groupSuffix_injective groups
  · intro same
    rw [charted, charted, same]

variable [Fintype ι] {crates : Crates} {services groupPrefix endpoint}

theorem sum_accountedFor_charted {service : PushService} (started : ∃ i, services i = .push service)
    {messages : String → List BorrowedMessage} {inputs : (i : ι) → List (Input ((services i).handler crates))}
    (delivered : Delivered crates (charted services groupPrefix endpoint) messages inputs) :
    ∑ i ∈ runs (charted services groupPrefix endpoint) service, (services i).accountedFor crates (inputs i) =
      ((messages "rpc.push-notification").map (Service.answer crates (.push service))).sum := by
  obtain ⟨i, isPush⟩ := started
  have isGroup : ∀ j, j ∈ runs (charted services groupPrefix endpoint) service ↔
      (charted services groupPrefix endpoint j).group = (charted services groupPrefix endpoint i).group := by
    intro j
    rw [mem_runs, group_charted_eq_iff, isPush]
    rfl
  have topic : (charted services groupPrefix endpoint i).group.1 = "rpc.push-notification" := by
    rw [Process.group, charted, isPush]
    cases service <;> rfl
  have answered := sum_answers_of_group delivered (Service.answer crates (.push service)) isGroup
  rw [topic, answers_eq, Multiset.map_coe, Multiset.sum_coe] at answered
  rw [← answered]
  exact @sum_accountedFor crates ι _ (charted services groupPrefix endpoint) service inputs

end Charts

/-- Any number of processes of each push service, started by the charts with any prefix for the
    groups: each platform that a notification names is answered once. -/
theorem charts_answer_each_platform_once (crates : Crates) {ι : Type} [Fintype ι] (services : ι → Service)
    (groupPrefix endpoint : String) (started : ∀ service : PushService, ∃ i, services i = .push service)
    {messages : String → List BorrowedMessage} {inputs : (i : ι) → List (Input ((services i).handler crates))}
    (delivered : Delivered crates (charted services groupPrefix endpoint) messages inputs) :
    let answered := ((messages "rpc.push-notification").map (platformAnswers crates)).sum
    (PushService.all.map fun service => ∑ i ∈ runs (charted services groupPrefix endpoint) service,
        (services i).accountedFor crates (inputs i)).sum = answered ∧
      ((∀ service, ∀ i ∈ runs (charted services groupPrefix endpoint) service,
          (handleRequests crates.protobuf ((services i).handler crates) (inputs i)).session.executor.tasks = []) →
        (PushService.all.map fun service => ∑ i ∈ runs (charted services groupPrefix endpoint) service,
          (handleRequests crates.protobuf ((services i).handler crates)
            (inputs i)).session.world.receipts).sum = answered) := by
  intro answered
  have accounted : (PushService.all.map fun service => ∑ i ∈ runs (charted services groupPrefix endpoint) service,
      (services i).accountedFor crates (inputs i)).sum = answered := by
    simp only [answered, ← funext (PushService.sum_amount_owed crates), PushService.all, List.map_cons,
      List.map_nil, List.sum_cons, List.sum_nil, add_zero, List.sum_map_add,
      sum_accountedFor_charted (started _) delivered]
    rfl
  refine ⟨accounted, fun drained => ?_⟩
  rw [← accounted]
  refine congrArg List.sum (List.map_congr_left fun service _ => Finset.sum_congr rfl fun i member => ?_)
  exact (Service.accountedFor_of_drained (drained service i member)).symm

instance : Fintype PushService where
  elems := {.apns2, .fcm, .webPush}
  complete service := by cases service <;> decide

/-- Two processes of each service, of which the second one is given the message. -/
def replicaInputs (replica : PushService × Fin 2) : List (Input (replica.1.handler pushCrates)) :=
  if replica.2 = 0 then [] else justTaking [pushMessage]

theorem replicaInputs_answered :
    (PushService.all.map fun service =>
      ∑ replica ∈ runs (charted (fun replica : PushService × Fin 2 => .push replica.1) "staging" "kafka:9092") service,
        Service.accountedFor pushCrates (.push replica.1) (replicaInputs replica)).sum =
      {pushReceipt none samplePush} := by
  have delivered : Delivered pushCrates
      (charted (fun replica : PushService × Fin 2 => .push replica.1) "staging" "kafka:9092")
      (fun _ => [pushMessage]) replicaInputs := by
    rintro ⟨_ | _ | _, ⟨_ | _ | _, inside⟩⟩ <;> rfl
  rw [(charts_answer_each_platform_once pushCrates _ _ _ (fun service => ⟨(service, 0), rfl⟩) delivered).1]
  rfl

/-- The file for a service of its own, as `CONFIG` may name it. -/
def ownConfig : PushService → String
  | .apns2 => "./config/apns2.toml"
  | .fcm => "./config/fcm.toml"
  | .webPush => "./config/web_push.toml"

/-- The processes of fcm answer every message for them once. -/
def FcmAnswersOnce (processes : PushService → Process) : Prop :=
  ∀ messages inputs, Delivered pushCrates processes messages inputs →
    ∑ i ∈ runs processes .fcm, (processes i).service.accountedFor pushCrates (inputs i) =
      ((messages "rpc.push-notification").filterMap (Service.owed pushCrates (.push .fcm)) : List Receipt)

/-- With the files of the repository that is so if each service is told to read its own one.  If no
    service is told, apns2 reads the one of fcm, and takes messages from it. -/
theorem config_files_answer_once :
    (∃ processes : PushService → Process,
      (∀ service, Process.start configFiles (some (ownConfig service)) (.push service) = some (processes service)) ∧
        FcmAnswersOnce processes) ∧
    ∃ processes : PushService → Process,
      (∀ service, Process.start configFiles none (.push service) = some (processes service)) ∧
        ¬ FcmAnswersOnce processes := by
  have accepted : ∃ msg, Service.owed pushCrates (.push .fcm) msg ≠ none :=
    ⟨pushMessage, fun impossible => (nomatch impossible)⟩
  constructor
  · refine ⟨fun | .apns2 => _ | .fcm => _ | .webPush => _, fun | .apns2 => rfl | .fcm => rfl | .webPush => rfl, ?_⟩
    refine (processes_answer_once_iff pushCrates _ .fcm ?_ accepted).mpr ⟨.fcm, ?_⟩
    · rintro (_ | _ | _) isPush <;> rfl
    · decide
  · refine ⟨fun | .apns2 => _ | .fcm => _ | .webPush => _, fun | .apns2 => rfl | .fcm => rfl | .webPush => rfl, ?_⟩
    refine mt (processes_answer_once_iff pushCrates _ .fcm ?_ accepted).mp ?_
    · rintro (_ | _ | _) isPush <;> rfl
    · decide

/-! ## The configuration topic -/

/-- Whatever its group, a process reads the partitions of the configuration topic that it has assigned
    to itself.  Its tenants are those of the whole topic exactly if nobody with an entry there is
    spoken of in a partition beyond the twelfth. -/
theorem assigned_partitions_replay_iff (crates : Crates) (service : PushService)
    (clients : (service.handler crates).Clients) (p : Process) {partitions : String → List (List BorrowedMessage)}
    (keyed : ∀ partition ∈ partitions p.config.configTopic, ∀ msg ∈ partition, WellKeyed crates.protobuf msg)
    (onePartition : ∀ key, InOnePart (hasKey messageKey key) (partitions p.config.configTopic))
    {reads whole : List BorrowedMessage}
    (assigned : Interleaving (p.consumers.flatMap (·.assigned partitions)) reads)
    (interleaving : Interleaving (partitions p.config.configTopic) whole)
    {s s' : ConfigState (service.handler crates)} (ran : configRun crates service clients reads = .ok s)
    (ranWhole : configRun crates service clients whole = .ok s') :
    s.1 = s'.1 ↔ ∀ u, (∃ partition ∈ (partitions p.config.configTopic).drop 12,
      ∃ msg ∈ partition, aboutTenant u msg = true) → s'.1.lookup u = none := by
  rw [Process.assigned_consumers] at assigned
  have keyedFirst : ∀ partition ∈ (partitions p.config.configTopic).take 12, ∀ msg ∈ partition,
      WellKeyed crates.protobuf msg := fun partition isPartition =>
    keyed partition (List.mem_of_mem_take isPartition)
  obtain ⟨s₀, ran₀, table⟩ := configRun_table crates service clients (wellKeyed_reads keyedFirst assigned)
  obtain ⟨s₁, ran₁, table'⟩ := configRun_table crates service clients (wellKeyed_reads keyed interleaving)
  cases ran.symm.trans ran₀
  cases ranWhole.symm.trans ran₁
  have keyedTopic := fun partition isPartition msg inside =>
    keyed_messageUpdate crates service clients (keyed partition isPartition msg inside)
  rw [table, table', take_replays_iff onePartition keyedTopic interleaving assigned]
  refine forall_congr' fun u => imp_congr_left (exists_congr fun partition => and_congr_right fun _ => ?_)
  rw [← List.any_eq_true]
  exact any_hasKey_iff.symm

/-- A topic of thirteen partitions with a tenant in the last one. -/
def thirteenPartitions (_ : String) : List (List BorrowedMessage) := List.replicate 12 [] ++ [[configureA]]

theorem mem_thirteenPartitions {topic : String} {partition : List BorrowedMessage} {msg : BorrowedMessage}
    (isPartition : partition ∈ thirteenPartitions topic) (member : msg ∈ partition) : msg = configureA := by
  rcases List.mem_append.mp isPartition with before | last
  · rw [(List.mem_replicate.mp before).2] at member
    cases member
  · rw [List.mem_singleton.mp last] at member
    exact List.mem_singleton.mp member

theorem eq_twelve_of_mem {topic : String} {i : Nat} {partition : List BorrowedMessage} {msg : BorrowedMessage}
    (position : (thirteenPartitions topic)[i]? = some partition) (member : msg ∈ partition) : i = 12 := by
  rw [thirteenPartitions, List.getElem?_append, List.length_replicate] at position
  split at position
  case isTrue before =>
    rw [List.getElem?_replicate_of_lt before] at position
    cases position
    cases member
  case isFalse after =>
    have bound := (List.getElem?_eq_some_iff.mp position).1
    rw [List.length_singleton] at bound
    omega

/-- The processes of fcm do not get to know the tenant. -/
theorem thirteenPartitions_not_read :
    ∃ s s', configRun tenantCrates .fcm () [] = .ok s ∧ configRun tenantCrates .fcm () [configureA] = .ok s' ∧
      s'.1.lookup "A" = some "key" ∧ s.1 ≠ s'.1 := by
  have brings : configCall tenantCrates.protobuf configureA = .ok (some ("A", some (sampleApplication "A"))) := by
    rw [configureA, configCall_configKey, namedTenant_of_not_mem (by decide)]
    rfl
  have ranWhole : configRun tenantCrates .fcm () [configureA] =
      .ok (Fcm.FcmHandler.handleConfig "A" (some (sampleApplication "A")) (∅, World.init)) := by
    simp only [configRun, List.map_cons, List.map_nil, handleConfigs, processConfig, brings]
    rfl
  have entry : Finmap.lookup "A"
      (Fcm.FcmHandler.handleConfig "A" (some (sampleApplication "A")) (∅, World.init)).1 = some "key" := by decide
  have onePartition : ∀ key, InOnePart (hasKey messageKey key) (thirteenPartitions "config.push-notification") := by
    rintro key i j part part' atI atJ ⟨msg, member, -⟩ ⟨msg', member', -⟩
    rw [eq_twelve_of_mem atI member, eq_twelve_of_mem atJ member']
  let p : Process := ⟨.push .fcm, Service.chartConfig "staging" "kafka:9092" (.push .fcm)⟩
  have assigned : Interleaving (p.consumers.flatMap (·.assigned thirteenPartitions)) [] := .done (by decide)
  have whole : Interleaving (thirteenPartitions p.config.configTopic) [configureA] :=
    @Interleaving.of_parts _ [] (thirteenPartitions p.config.configTopic) (by simp)
  refine ⟨_, _, rfl, ranWhole, entry, fun same => ?_⟩
  have unknown := (assigned_partitions_replay_iff tenantCrates .fcm () p
    (fun partition isPartition msg member => wellKeyed_tenantCrates (mem_thirteenPartitions isPartition member ▸ rfl))
    onePartition assigned whole rfl ranWhole).mp same "A" ⟨[configureA], by decide, configureA, by simp, by decide⟩
  rw [entry] at unknown
  cases unknown

end XorcNotifications

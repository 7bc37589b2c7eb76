import XorcNotifications.Lib.WriterInvariants
import XorcNotifications.Verified.Atomicity
import XorcNotifications.Verified.Replay

/-!
# Gauges while a configuration is stored

The gauges of a push service are exact after every call of `handle_config`, and in between they
are not: a notifier is counted before it is stored and dropped after it is taken out, and the
applications are counted when the guard for writing has gone.  Who reads the gauges at any moment
finds them off by one at most.
-/

namespace XorcNotifications

open Executors KeyedTables Guards HandlerProgram

/-! ## One entry too many or too few -/

/-- The gauge of applications is off by one at most. -/
def ApplicationsNear {Entry Call : Type} (s : Table String Entry × World Call) : Prop :=
  (s.2.metrics.numberOfApplications - s.1.size).natAbs ≤ 1

section Applications

variable {Entry Call : Type} {table table' : Table String Entry} {w : World Call}

theorem ApplicationsExact.near_of_size (exact : ApplicationsExact (table, w))
    (more : table.size ≤ table'.size + 1) (less : table'.size ≤ table.size + 1) :
    ApplicationsNear (table', w) := by
  have applications : w.metrics.numberOfApplications = table.size := exact
  show (w.metrics.numberOfApplications - (table'.size : Int)).natAbs ≤ 1
  omega

theorem ApplicationsExact.near (exact : ApplicationsExact (table, w)) : ApplicationsNear (table, w) :=
  exact.near_of_size (Nat.le_succ _) (Nat.le_succ _)

theorem ApplicationsExact.insert (exact : ApplicationsExact (table, w)) (id : String) (entry : Entry) :
    ApplicationsNear (table.insert id entry, w) := by
  refine exact.near_of_size ?_ ?_
  · rw [Table.size, Table.size, Table.keys_insert]
    exact (Finset.card_le_card (Finset.subset_insert ..)).trans (Nat.le_succ _)
  · rw [Table.size, Table.size, Table.keys_insert]
    exact Finset.card_insert_le ..

theorem ApplicationsExact.erase (exact : ApplicationsExact (table, w)) (id : String) :
    ApplicationsNear (table.erase id, w) := by
  refine exact.near_of_size ?_ ?_
  · rw [Table.size, Table.size, Finmap.keys_erase]
    exact Nat.le_add_of_sub_le Finset.pred_card_le_card_erase
  · rw [Table.size, Table.size, Finmap.keys_erase]
    exact Finset.card_erase_le.trans (Nat.le_succ _)

end Applications

/-- Gauges that count the entries of a table, and one entry besides that is not stored yet, or not
    stored any more. -/
structure EntryGauges (H : EventHandler) where
  drop : H.Entry → World H.Call → World H.Call
  counts : Option H.Entry → RequestConsumer.ConfigState H → Prop
  seen : ∀ {extra table w w'}, w.configSide = w'.configSide → counts extra (table, w) → counts extra (table, w')
  set : ∀ {extra table w} n, counts extra (table, w) → counts extra (table, w.setNumberOfApplications n)
  insert : ∀ {entry table w} id, counts (some entry) (table, w) →
    counts (table.lookup id) (table.insert id entry, w)
  erase : ∀ {table w} id, counts none (table, w) → counts (table.lookup id) (table.erase id, w)
  dropped : ∀ {entry table w}, counts (some entry) (table, w) → counts none (table, drop entry w)
  applications : ∀ entry w, (drop entry w).metrics.numberOfApplications = w.metrics.numberOfApplications

/-- Where no gauge counts the entries. -/
def EntryGauges.plain (H : EventHandler) : EntryGauges H where
  drop _ w := w
  counts _ _ := True
  seen _ _ := trivial
  set _ _ := trivial
  insert _ _ := trivial
  erase _ _ := trivial
  dropped _ := trivial
  applications _ _ := rfl

namespace EntryGauges

variable {H : EventHandler} (gauges : EntryGauges H)

def Near (table : Table String H.Entry) (x : Executor H.Event (World H.Call)) : Prop :=
  ApplicationsNear (table, x.world) ∧ ∃ extra, gauges.counts extra (table, x.world)

def Exact (table : Table String H.Entry) (x : Executor H.Event (World H.Call)) : Prop :=
  ApplicationsExact (table, x.world) ∧ gauges.counts none (table, x.world)

/-- The entries are counted, and the applications have still to be. -/
def Stored (table : Table String H.Entry) (x : Executor H.Event (World H.Call)) : Prop :=
  ApplicationsNear (table, x.world) ∧ gauges.counts none (table, x.world)

/-- The entry is counted, and has still to be stored. -/
def Ahead (entry : H.Entry) (table : Table String H.Entry) (x : Executor H.Event (World H.Call)) : Prop :=
  ApplicationsExact (table, x.world) ∧ gauges.counts (some entry) (table, x.world)

abbrev Passes (p : HandlerProgram H) (table : Table String H.Entry)
    (x : Executor H.Event (World H.Call)) : Prop :=
  Program.Passes gauges.Near gauges.Exact p table x

variable {gauges} {table : Table String H.Entry} {x : Executor H.Event (World H.Call)}

theorem Exact.stored (exact : gauges.Exact table x) : gauges.Stored table x := ⟨exact.1.near, exact.2⟩

theorem Stored.near (stored : gauges.Stored table x) : gauges.Near table x := ⟨stored.1, _, stored.2⟩

theorem Exact.near (exact : gauges.Exact table x) : gauges.Near table x := exact.stored.near

theorem Ahead.near {entry : H.Entry} (ahead : gauges.Ahead entry table x) : gauges.Near table x :=
  ⟨ahead.1.near, _, ahead.2⟩

theorem exact_setNumberOfApplications (stored : gauges.Stored table x) :
    gauges.Exact table (onWorld (·.setNumberOfApplications table.size) x) :=
  ⟨rfl, gauges.set _ stored.2⟩

theorem near_drop {entry : H.Entry} (near : ApplicationsNear (table, x.world))
    (counts : gauges.counts (some entry) (table, x.world)) :
    gauges.Stored table (onWorld (gauges.drop entry) x) := by
  refine ⟨?_, gauges.dropped counts⟩
  rw [ApplicationsNear] at near ⊢
  exact (gauges.applications entry x.world).symm ▸ near

theorem exact_log (exact : gauges.Exact table x) (level : LogLevel) (message : String) (pairs : LogPairs) :
    gauges.Exact table (onWorld (·.log level message pairs) x) := by
  have same : x.world.configSide = (x.world.log level message pairs).configSide := rfl
  exact ⟨exact.1, gauges.seen same exact.2⟩

/-! ### The steps all services share -/

theorem passes_returnsUnit (exact : gauges.Exact table x) : gauges.Passes returnsUnit table x :=
  ⟨exact.near, fun _ => exact⟩

variable {rest : HandlerProgram H}

theorem passes_log {level : LogLevel} {message : String} {pairs : LogPairs} (exact : gauges.Exact table x)
    (rests : ∀ {x}, gauges.Exact table x → gauges.Passes rest table x) :
    gauges.Passes (.act (onWorld (·.log level message pairs)) rest) table x :=
  ⟨exact.near, rests (exact_log exact level message pairs)⟩

theorem passes_setAppCounter (stored : gauges.Stored table x)
    (rests : ∀ {x}, gauges.Exact table x → gauges.Passes rest table x) :
    gauges.Passes (setAppCounter rest) table x := by
  have exact := exact_setNumberOfApplications stored
  exact ⟨stored.near, stored.near, stored.near, exact.near, rests exact⟩

theorem passes_insertEntry {entry : H.Entry} (ahead : gauges.Ahead entry table x) (id : String)
    (rests : ∀ {table x}, gauges.Stored table x → gauges.Passes rest table x) :
    gauges.Passes (insertEntry gauges.drop id entry rest) table x := by
  refine ⟨ahead.near, ahead.near, ahead.near, ?_⟩
  have near := ahead.1.insert id entry
  have counts := gauges.insert id ahead.2
  cases found : table.lookup id with
  | none =>
    rw [found] at counts
    have stored : gauges.Stored (table.insert id entry) x := ⟨near, counts⟩
    exact ⟨stored.near, rests stored⟩
  | some replaced =>
    rw [found] at counts
    have stored := near_drop near counts
    exact ⟨⟨near, _, counts⟩, stored.near, rests stored⟩

theorem passes_removeEntry (exact : gauges.Exact table x) (level : LogLevel) (id : String) :
    gauges.Passes (removeEntry gauges.drop level id) table x := by
  refine ⟨exact.near, exact.near, ?_⟩
  beta_reduce
  have near := exact.1.erase id
  have counts := gauges.erase id exact.2
  cases found : table.lookup id with
  | none => exact ⟨exact.near, passes_returnsUnit exact⟩
  | some removed =>
    rw [found] at counts
    have stored := near_drop near counts
    exact ⟨exact.near, ⟨near, _, counts⟩, stored.near,
      passes_setAppCounter stored fun exact => passes_log exact passes_returnsUnit⟩

theorem seen_near : handlerViews.Seen .writer gauges.Near := by
  rintro table x x' same ⟨near, extra, counts⟩
  refine ⟨?_, extra, gauges.seen same counts⟩
  have applications : x.world.metrics.numberOfApplications = x'.world.metrics.numberOfApplications :=
    congrArg (fun side => side.2.2) same
  rw [ApplicationsNear] at near ⊢
  exact applications ▸ near

theorem seen_exact : handlerViews.Seen .writer gauges.Exact := by
  rintro table x x' same ⟨exact, counts⟩
  refine ⟨?_, gauges.seen same counts⟩
  have applications : x.world.metrics.numberOfApplications = x'.world.metrics.numberOfApplications :=
    congrArg (fun side => side.2.2) same
  exact applications.symm.trans exact

end EntryGauges

open EntryGauges

/-! ## apns2 -/

namespace Apns2

open ApnsHandler

/-- Both gauges of notifiers count the table, and one notifier besides. -/
def ConsumersCount (extra : Option Notifier) (s : Notifiers × World) : Prop :=
  ∀ notifierType : NotifierType,
    notifierType.consumers s.2 = s.1.count (Notifier.hasType notifierType) +
      Table.countOf (Notifier.hasType notifierType) extra

theorem consumersExact_of_count {s : Notifiers × World} (counts : ConsumersCount none s) : ConsumersExact s :=
  fun notifierType => (counts notifierType).trans (Int.add_zero _)

section ConsumersCount

variable {extra : Option Notifier} {notifier : Notifier} {notifiers : Notifiers} {w w' : World}

theorem consumersCount_of_configSide (same : w.configSide = w'.configSide)
    (counts : ConsumersCount extra (notifiers, w)) : ConsumersCount extra (notifiers, w') := by
  intro notifierType
  refine Eq.trans ?_ (counts notifierType)
  cases notifierType with
  | token => exact (congrArg Prod.fst same).symm
  | certificate => exact (congrArg (fun side => side.2.1) same).symm

theorem consumersCount_setNumberOfApplications (n : Nat) (counts : ConsumersCount extra (notifiers, w)) :
    ConsumersCount extra (notifiers, w.setNumberOfApplications n) := by
  intro notifierType
  refine Eq.trans ?_ (counts notifierType)
  cases notifierType <;> rfl

/-- The notifier that is replaced takes the place of the one that is stored. -/
theorem consumersCount_insert (id : String) (counts : ConsumersCount (some notifier) (notifiers, w)) :
    ConsumersCount (notifiers.lookup id) (notifiers.insert id notifier, w) := by
  intro notifierType
  have counted := counts notifierType
  have inserted := Table.count_insert (Notifier.hasType notifierType) notifiers id notifier
  simp only at counted ⊢
  omega

theorem consumersCount_erase (id : String) (counts : ConsumersCount none (notifiers, w)) :
    ConsumersCount (notifiers.lookup id) (notifiers.erase id, w) := by
  intro notifierType
  have counted := consumersExact_of_count counts notifierType
  have erased := Table.count_erase (Notifier.hasType notifierType) notifiers id
  simp only at counted ⊢
  omega

theorem consumersCount_drop (counts : ConsumersCount (some notifier) (notifiers, w)) :
    ConsumersCount none (notifiers, notifier.drop w) := by
  intro notifierType
  have counted := counts notifierType
  have drops := consumers_drop notifier w notifierType
  have nothing : Table.countOf (Notifier.hasType notifierType) none = 0 := rfl
  simp only at counted ⊢
  omega

theorem numberOfApplications_drop (notifier : Notifier) (w : World) :
    (notifier.drop w).metrics.numberOfApplications = w.metrics.numberOfApplications := by
  obtain ⟨client, topic, _ | _⟩ := notifier <;> rfl

end ConsumersCount

def entryGauges (crates : Crates) (topic : String) : EntryGauges (apnsHandler crates topic) where
  drop := Notifier.drop
  counts := ConsumersCount
  seen := consumersCount_of_configSide
  set := consumersCount_setNumberOfApplications
  insert := consumersCount_insert
  erase := consumersCount_erase
  dropped := consumersCount_drop
  applications := numberOfApplications_drop

variable {crates : Crates} {topic : String} {notifiers : Notifiers} {x : Executor Answer World}

theorem passes_finishUpdate (application : Application) (updated : Except Error Unit)
    (stored : (entryGauges crates topic).Stored notifiers x) :
    (entryGauges crates topic).Passes (GuardedApnsHandler.finishUpdate crates topic application updated)
      notifiers x := by
  cases updated with
  | error error => exact passes_setAppCounter stored fun exact => passes_log exact passes_returnsUnit
  | ok done => exact passes_setAppCounter stored passes_returnsUnit

theorem passes_addNotifier {made : Except Error Client} {count : World → World} {notifierType : NotifierType}
    {id apnsTopic : String} (application : Application)
    (ahead : ∀ client, (entryGauges crates topic).Ahead ⟨client, apnsTopic, notifierType⟩ notifiers
      (onWorld (H := apnsHandler crates topic) count x))
    (exact : (entryGauges crates topic).Exact notifiers x) :
    (entryGauges crates topic).Passes (GuardedApnsHandler.addNotifier made count notifierType id apnsTopic
      (GuardedApnsHandler.finishUpdate crates topic application)) notifiers x := by
  cases made with
  | error error => exact passes_finishUpdate application (.error error) exact.stored
  | ok client =>
    exact ⟨exact.near, passes_insertEntry (ahead client) id (passes_finishUpdate application (.ok ()))⟩

theorem passes_handleConfig (clients : ClientOutcomes) (id : String) (application : Option Application)
    (exact : (entryGauges crates topic).Exact notifiers x) :
    (entryGauges crates topic).Passes (GuardedApnsHandler.handleConfig crates topic clients id application)
      notifiers x := by
  rcases guarded_handleConfig_cases crates topic clients id application with
    ⟨id', guarded, -⟩ | ⟨application', token, guarded, -⟩ | ⟨application', certificate, guarded, -⟩
  · rw [guarded]
    exact passes_removeEntry exact .warn id'
  · rw [guarded]
    refine passes_log exact fun exact => passes_addNotifier application' (fun client => ⟨exact.1, ?_⟩) exact
    exact countedAhead_token (consumersExact_of_count exact.2) client token.apnsTopic
  · rw [guarded]
    refine passes_log exact fun exact => passes_addNotifier application' (fun client => ⟨exact.1, ?_⟩) exact
    exact countedAhead_certificate (consumersExact_of_count exact.2) client certificate.apnsTopic

end Apns2

/-! ## fcm -/

namespace Fcm

open FcmHandler

theorem passes_handleConfig {crates : Crates} {topic : String} {apiKeys : ApiKeys} {x : Executor Answer World}
    (id : String) (application : Option Application)
    (exact : (EntryGauges.plain (fcmHandler crates topic)).Exact apiKeys x) :
    (EntryGauges.plain (fcmHandler crates topic)).Passes
      (GuardedFcmHandler.handleConfig crates topic id application) apiKeys x := by
  rcases guarded_handleConfig_cases crates topic id application with
    ⟨id', guarded, -⟩ | ⟨id', apiKey, pairs, guarded, -⟩
  · rw [guarded]
    exact passes_removeEntry exact .info id'
  · rw [guarded]
    exact passes_log exact fun exact => passes_insertEntry ⟨exact.1, trivial⟩ id' fun stored =>
      passes_setAppCounter stored passes_returnsUnit

end Fcm

/-! ## web_push -/

namespace WebPush

open WebPushHandler

theorem passes_handleConfig {crates : Crates} {topic : String} {fcmApiKeys : FcmApiKeys}
    {x : Executor Answer World} (id : String) (application : Option Application)
    (exact : (EntryGauges.plain (webPushHandler crates topic)).Exact fcmApiKeys x) :
    (EntryGauges.plain (webPushHandler crates topic)).Passes
      (GuardedWebPushHandler.handleConfig crates topic id application) fcmApiKeys x := by
  rcases guarded_handleConfig_cases crates topic id application with
    ⟨id', guarded, -⟩ | ⟨id', entry, pairs, guarded, -⟩
  · rw [guarded]
    exact passes_removeEntry exact .info id'
  · rw [guarded]
    exact passes_log exact fun exact => passes_insertEntry ⟨exact.1, trivial⟩ id' fun stored =>
      passes_setAppCounter stored passes_returnsUnit

end WebPush

/-! ## Every push service -/

namespace PushService

variable (crates : XorcNotifications.Crates) (service : PushService)

/-- The gauges are off by one entry at most, as far as the service has them. -/
def GaugesNear : (service : PushService) → RequestConsumer.ConfigState (service.handler crates) → Prop
  | .apns2, s => ApplicationsNear s ∧ ∃ extra, Apns2.ConsumersCount extra s
  | .fcm, s => ApplicationsNear s
  | .webPush, s => ApplicationsNear s

def entryGauges : (service : PushService) → EntryGauges (service.handler crates)
  | .apns2 => Apns2.entryGauges crates.apns2 crates.outputTopic
  | .fcm => .plain _
  | .webPush => .plain _

variable {crates service} {table : Table String (service.handler crates).Entry}
  {x : Executor (service.handler crates).Event (World (service.handler crates).Call)}

theorem gaugesNear (near : (service.entryGauges crates).Near table x) :
    service.GaugesNear crates (table, x.world) := by
  cases service with
  | apns2 => exact near
  | fcm => exact near.1
  | webPush => exact near.1

theorem gaugesExact (exact : (service.entryGauges crates).Exact table x) :
    service.GaugesExact crates (table, x.world) := by
  cases service with
  | apns2 => exact ⟨exact.1, Apns2.consumersExact_of_count exact.2⟩
  | fcm => exact exact.1
  | webPush => exact exact.1

variable (crates service)

theorem exact_start : (service.entryGauges crates).Exact ∅ (Executor.start World.init) := by
  cases service with
  | apns2 =>
    refine ⟨rfl, fun notifierType => ?_⟩
    rw [Table.count_empty]
    cases notifierType <;> rfl
  | fcm => exact ⟨rfl, trivial⟩
  | webPush => exact ⟨rfl, trivial⟩

theorem mends_gauges :
    (service.operations crates).Mends (service.entryGauges crates).Near (service.entryGauges crates).Exact where
  seenAmid := seen_near
  seenBetween := seen_exact
  weaker _ _ exact := exact.near
  passes call writes table x exact := by
    cases call with
    | config clients id application =>
      cases service with
      | apns2 => exact Apns2.passes_handleConfig clients id application exact
      | fcm => exact Fcm.passes_handleConfig id application exact
      | webPush => exact WebPush.passes_handleConfig id application exact
    | notification key event => cases writes
    | http key event => cases writes
    | poll task event => cases writes
    | ignored record => cases writes

end PushService

/-- Whoever reads the gauges, whatever the two threads are in the middle of, finds that of the
    applications at most one off the table, and those of the notifiers one notifier ahead of it at
    most.  While no configuration is being stored they are exact. -/
theorem guarded_gauges_near (crates : XorcNotifications.Crates) (service : PushService)
    {actions : List (Action (HandlerCall (service.handler crates)))} {s : service.Guarded crates}
    (ran : service.guardedRun crates actions = some s) :
    service.GaugesNear crates (s.table, s.world.world) ∧
      (s.threads .writer = none → service.GaugesExact crates (s.table, s.world.world)) := by
  obtain ⟨near, idle⟩ := (service.mends_gauges crates).of_run sound_start (service.exact_start crates) ran
  exact ⟨PushService.gaugesNear near, fun nobody => PushService.gaugesExact (idle nobody)⟩

def connectedApplication (token : Option IosToken) (certificate : Option IosCertificate) : Application :=
  { sampleApplication "A" with iosConfig := some ⟨true, token, certificate⟩ }

/-- A tenant that is connected by certificate changes to a token. -/
def changedConnection : List (Action (HandlerCall (PushService.apns2.handler guardedCrates))) :=
  let clients : Apns2.ClientOutcomes := ⟨fun _ _ _ _ => none, fun _ _ _ => none⟩
  let certificate := connectedApplication none (some ⟨.empty, "", .production, "topic"⟩)
  let token := connectedApplication (some ⟨.empty, "key", "team", .production, "topic"⟩) none
  .call (.config clients "A" (some certificate)) :: List.replicate 11 (.step .writer) ++
    .call (.config clients "A" (some token)) :: List.replicate 5 (.step .writer)

/-- The notifier that the new one has replaced has still to be dropped.  Before, when the first
    configuration had been stored, the gauges were exact. -/
theorem changedConnection_gauges :
    (∃ s, PushService.apns2.guardedRun guardedCrates changedConnection = some s ∧
      s.world.world.configSide = (1, 1, 1) ∧ s.table.size = 1 ∧
      PushService.apns2.GaugesNear guardedCrates (s.table, s.world.world)) ∧
    ∃ s, PushService.apns2.guardedRun guardedCrates (changedConnection.take 12) = some s ∧
      s.world.world.configSide = (0, 1, 1) ∧
      PushService.apns2.GaugesExact guardedCrates (s.table, s.world.world) := by
  have amid := @guarded_gauges_near guardedCrates .apns2 changedConnection _ rfl
  have idle := @guarded_gauges_near guardedCrates .apns2 (changedConnection.take 12) _ rfl
  exact ⟨⟨_, rfl, rfl, rfl, amid.1⟩, _, rfl, rfl, idle.2 rfl⟩

end XorcNotifications

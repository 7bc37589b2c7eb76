import XorcNotifications.GuardedServices
import XorcNotifications.Lib.Serialization
import XorcNotifications.Verified.Outputs

/-!
# The programs of the handlers

Two facts about every program: alone it comes to what the handler function does at once, and it
keeps to the thread that runs it.  The request loop works on what the service lets out, on the gauge
of what is in flight and on the spawned tasks; the configuration loop works on the gauges that
count connections and applications.  The log belongs to both, and is left out here.
-/

namespace XorcNotifications

open Futures Executors KeyedTables Guards HandlerProgram

/-! ## The two sides of the world -/

namespace World

variable {Call : Type}

def requestSide (w : World Call) : Outlet Call × Int := (w.outlet, w.inflight)

/-- The connections by token and by certificate, and the applications. -/
def configSide (w : World Call) : Int × Int × Int :=
  (w.metrics.tokenConsumers, w.metrics.certificateConsumers, w.metrics.numberOfApplications)

/-- The effect works on one side of the world, and leaves the other side as it is. -/
structure ActsOn {M O : Type} (mine : World Call → M) (others : World Call → O)
    (effect : World Call → World Call) : Prop where
  respects : ∀ {w w'}, mine w = mine w' → mine (effect w) = mine (effect w')
  frame : ∀ w, others (effect w) = others w

abbrev RequestEffect (effect : World Call → World Call) : Prop := ActsOn requestSide configSide effect

abbrev ConfigEffect (effect : World Call → World Call) : Prop := ActsOn configSide requestSide effect

theorem ActsOn.of_map {M O : Type} {mine : World Call → M} {others : World Call → O}
    {effect : World Call → World Call} (f : M → M) (maps : ∀ w, mine (effect w) = f (mine w))
    (frame : ∀ w, others (effect w) = others w) : ActsOn mine others effect :=
  ⟨fun same => by rw [maps, maps, same], frame⟩

theorem ActsOn.of_same {M O : Type} {mine : World Call → M} {others : World Call → O}
    {effect : World Call → World Call} (still : ∀ w, mine (effect w) = mine w)
    (frame : ∀ w, others (effect w) = others w) : ActsOn mine others effect :=
  .of_map id still frame

theorem ActsOn.comp {M O : Type} {mine : World Call → M} {others : World Call → O}
    {first second : World Call → World Call} (later : ActsOn mine others second)
    (earlier : ActsOn mine others first) : ActsOn mine others fun w => second (first w) :=
  ⟨fun same => later.respects (earlier.respects same), fun w => (later.frame _).trans (earlier.frame w)⟩

/-! ### The operations of the request loop -/

theorem requestEffect_log (level : LogLevel) (message : String) (pairs : LogPairs) :
    RequestEffect fun w : World Call => w.log level message pairs :=
  .of_same (fun _ => rfl) fun _ => rfl

theorem requestEffect_logAll (records : List LogRecord) : RequestEffect fun w : World Call => w.logAll records :=
  .of_same (fun _ => rfl) fun _ => rfl

theorem requestEffect_countCallback (label : String) :
    RequestEffect fun w : World Call => w.countCallback label :=
  .of_map (fun side => ({ side.1 with counter := side.1.counter.inc label }, side.2)) (fun _ => rfl) fun _ => rfl

theorem requestEffect_publish (topic : String) (key : Option Bytes) (event : ResponseMessage) :
    RequestEffect fun w : World Call => w.publish topic key event :=
  .of_map (fun side => ({ side.1 with published := side.1.published ++ [⟨topic, key, event⟩] }, side.2))
    (fun _ => rfl) fun _ => rfl

theorem requestEffect_startCall (call : Call) : RequestEffect fun w : World Call => w.startCall call :=
  .of_map (fun side => ({ side.1 with calls := side.1.calls ++ [call] }, side.2)) (fun _ => rfl) fun _ => rfl

theorem requestEffect_incInflight : RequestEffect fun w : World Call => w.incInflight :=
  .of_map (fun side => (side.1, side.2 + 1)) (fun _ => rfl) fun _ => rfl

theorem requestEffect_decInflight : RequestEffect fun w : World Call => w.decInflight :=
  .of_map (fun side => (side.1, side.2 - 1)) (fun _ => rfl) fun _ => rfl

/-! ### The operations of the configuration loop -/

theorem configEffect_log (level : LogLevel) (message : String) (pairs : LogPairs) :
    ConfigEffect fun w : World Call => w.log level message pairs :=
  .of_same (fun _ => rfl) fun _ => rfl

theorem configEffect_setNumberOfApplications (n : Nat) :
    ConfigEffect fun w : World Call => w.setNumberOfApplications n :=
  .of_map (fun side => (side.1, side.2.1, n)) (fun _ => rfl) fun _ => rfl

theorem configEffect_addTokenConsumers (n : Int) : ConfigEffect fun w : World Call => w.addTokenConsumers n :=
  .of_map (fun side => (side.1 + n, side.2)) (fun _ => rfl) fun _ => rfl

theorem configEffect_addCertificateConsumers (n : Int) :
    ConfigEffect fun w : World Call => w.addCertificateConsumers n :=
  .of_map (fun side => (side.1, side.2.1 + n, side.2.2)) (fun _ => rfl) fun _ => rfl

end World

open World

/-- No panic is left, and what a future that is left will do acts on the side of the requests. -/
def LeavesRequest {ε Call : Type} : Leaves ε (World Call) → Prop
  | .nothing => True
  | .task future => ∀ polls effect, future.outcome polls = some effect → RequestEffect effect
  | .panic => False

section Views

variable {ε Call : Type}

/-- What the request loop can tell apart. -/
structure SameRequests (x x' : Executor ε (World Call)) : Prop where
  side : x.world.requestSide = x'.world.requestSide
  tasks : x.tasks = x'.tasks
  running : x.halted = false
  running' : x'.halted = false
  left : ∀ task ∈ x.tasks, LeavesRequest (.task task.future)

def handlerViews : Views (Executor ε (World Call)) where
  same
    | .reader, x, x' => SameRequests x x'
    | .writer, x, x' => x.world.configSide = x'.world.configSide
  symm {role x x'} same := by
    cases role with
    | reader => exact ⟨same.side.symm, same.tasks.symm, same.running', same.running, same.tasks ▸ same.left⟩
    | writer => exact same.symm
  trans {role x x' x''} first second := by
    cases role with
    | reader =>
      exact ⟨first.side.trans second.side, first.tasks.trans second.tasks, first.running, second.running',
        first.left⟩
    | writer => exact first.trans second

theorem sound_start : handlerViews.Sound (Executor.start World.init : Executor ε (World Call)) := by
  intro role
  cases role with
  | reader => exact ⟨rfl, rfl, rfl, rfl, fun task member => nomatch member⟩
  | writer => rfl

end Views

/-! ## What acts as which thread -/

section Acts

variable {H : EventHandler} {effect : World H.Call → World H.Call}

theorem LeavesRequest.quiet {ε Call : Type} {leaves : Leaves ε (World Call)} (left : LeavesRequest leaves) :
    leaves ≠ .panic := by
  rintro rfl
  exact left

theorem LeavesRequest.spawned {ε Call : Type} {leaves : Leaves ε (World Call)} (left : LeavesRequest leaves)
    {n : Nat} {task : Task ε (World Call)} (member : task ∈ leaves.spawned n) :
    LeavesRequest (.task task.future) := by
  cases leaves with
  | nothing => cases member
  | task future =>
    obtain rfl := List.mem_singleton.mp member
    exact left
  | panic => exact left.elim

theorem leavesRequest_map {ε Call α : Type} {future : Future ε α} {onAnswer : α → World Call → World Call}
    (acts : ∀ answer, RequestEffect (onAnswer answer)) : LeavesRequest (.task (future.map onAnswer)) := by
  intro polls effect resolved
  rw [Future.outcome_map, Option.map_eq_some_iff] at resolved
  obtain ⟨answer, -, rfl⟩ := resolved
  exact acts answer

theorem acts_onWorld_request (acts : RequestEffect effect) : handlerViews.Acts .reader (onWorld (H := H) effect) where
  respects same := ⟨acts.respects same.side, same.tasks, same.running, same.running', same.left⟩
  frame {x} _ := acts.frame x.world

theorem acts_onWorld_config (acts : ConfigEffect effect) : handlerViews.Acts .writer (onWorld (H := H) effect) where
  respects same := acts.respects same
  frame {x} sound :=
    have same := sound .reader
    ⟨acts.frame x.world, rfl, same.running, same.running, same.left⟩

theorem acts_react (acts : RequestEffect effect) {leaves : Leaves H.Event (World H.Call)}
    (left : LeavesRequest leaves) (n : Nat) :
    handlerViews.Acts .reader fun x : Executor H.Event (World H.Call) =>
      Executor.step { x with clock := n } (.react ⟨effect, leaves⟩) where
  respects {x x'} same := by
    rw [Executor.step_react (x := { x with clock := n }) same.running left.quiet,
      Executor.step_react (x := { x' with clock := n }) same.running' left.quiet]
    refine ⟨acts.respects same.side, congrArg (· ++ _) same.tasks, rfl, rfl, fun task member => ?_⟩
    rcases List.mem_append.mp member with earlier | new
    · exact same.left task earlier
    · exact left.spawned new
  frame {x} sound := by
    rw [Executor.step_react (x := { x with clock := n }) (sound .reader).running left.quiet]
    exact acts.frame x.world

theorem effectOf_tasks {x x' : Executor H.Event (World H.Call)} (tasks : x.tasks = x'.tasks) (id : Nat)
    (event : Option H.Event) : x.effectOf id event = x'.effectOf id event := by
  rw [Executor.effectOf, tasks, Executor.effectOf]

/-- A poll is an effect that one of the tasks has left, or none. -/
theorem requestEffect_poll {x x' : Executor H.Event (World H.Call)} (same : SameRequests x x') (id : Nat)
    (event : Option H.Event) :
    RequestEffect fun w => (x.effectOf id event).elim w fun effect => effect w := by
  cases settles : x.effectOf id event with
  | none => exact .of_same (fun _ => rfl) fun _ => rfl
  | some effect =>
    obtain ⟨task, found, settled⟩ := Option.bind_eq_some_iff.mp settles
    exact same.left task (List.mem_of_find?_eq_some found) _ _ settled

theorem future_advance {id : Nat} {event : Option H.Event} {task task' : Task H.Event (World H.Call)}
    (advanced : Task.advance id event task = some task') : task'.future = task.future := by
  rw [Task.advance] at advanced
  split at advanced
  · split at advanced <;> cases advanced
    rfl
  · cases advanced
    rfl

theorem acts_poll (n id : Nat) (event : Option H.Event) :
    handlerViews.Acts .reader fun x : Executor H.Event (World H.Call) =>
      Executor.step { x with clock := n } (.poll id event) where
  respects {x x'} same := by
    rw [Executor.step_poll (x := { x with clock := n }) same.running,
      Executor.step_poll (x := { x' with clock := n }) same.running']
    -- Both executors find the same effect, if any.
    have found : x.effectOf id event = x'.effectOf id event := effectOf_tasks same.tasks id event
    have side := ((requestEffect_poll same id event).respects same.side).trans
      (congrArg (fun effect => (effect.elim x'.world fun effect => effect x'.world).requestSide) found)
    refine ⟨side, congrArg (List.filterMap _) same.tasks, rfl, rfl, fun task' member => ?_⟩
    obtain ⟨task, earlier, advanced⟩ := List.mem_filterMap.mp member
    rw [future_advance advanced]
    exact same.left task earlier
  frame {x} sound := by
    rw [Executor.step_poll (x := { x with clock := n }) (sound .reader).running]
    exact (requestEffect_poll (sound .reader) id event).frame x.world

theorem acts_returnsUnit (n : Nat) :
    handlerViews.Acts .writer fun x : Executor H.Event (World H.Call) =>
      Executor.step { x with clock := n } (.background id) where
  respects same := same
  frame sound :=
    have same := sound .reader
    ⟨rfl, rfl, same.running, same.running, same.left⟩

end Acts

/-! ## The steps all services share -/

namespace HandlerProgram

variable {H : EventHandler}

/-- Alone, the program does to the table and to the world what the function does. -/
def ComesTo (p : HandlerProgram H) (f : RequestConsumer.ConfigState H → RequestConsumer.ConfigState H) :
    Prop :=
  ∀ table n x, p.tableAfter table = (f (table, x.world)).1 ∧
    p.effect table n x = ⟨(f (table, x.world)).2, x.tasks, n + 1, x.halted⟩

variable {rest : HandlerProgram H} {f : RequestConsumer.ConfigState H → RequestConsumer.ConfigState H}

theorem comesTo_returnsUnit : (returnsUnit (H := H)).ComesTo id := fun _ _ _ => ⟨rfl, rfl⟩

theorem ComesTo.act (comes : rest.ComesTo f) (effect : World H.Call → World H.Call) :
    ComesTo (.act (onWorld effect) rest) fun s => f (s.1, effect s.2) :=
  fun table n x => comes table n (onWorld effect x)

theorem ComesTo.setAppCounter (comes : rest.ComesTo f) :
    (setAppCounter rest).ComesTo fun s => f (s.1, s.2.setNumberOfApplications s.1.size) :=
  fun table n x => comes table n (onWorld (·.setNumberOfApplications table.size) x)

theorem ComesTo.insertEntry (comes : rest.ComesTo f) (drop : H.Entry → World H.Call → World H.Call)
    (id : String) (entry : H.Entry) :
    (insertEntry drop id entry rest).ComesTo fun s => f (s.1.insert id entry,
      match s.1.lookup id with
      | some replaced => drop replaced s.2
      | none => s.2) := by
  intro table n x
  simp only [HandlerProgram.insertEntry, Program.tableAfter, Program.effect]
  cases found : table.lookup id with
  | none => exact comes (table.insert id entry) n x
  | some replaced => exact comes (table.insert id entry) n (onWorld (drop replaced) x)

/-- Where nothing is to be done for a replaced entry. -/
theorem ComesTo.insertEntry_plain (comes : rest.ComesTo f) (id : String) (entry : H.Entry) :
    (HandlerProgram.insertEntry (fun _ w => w) id entry rest).ComesTo fun s =>
      f (s.1.insert id entry, s.2) := by
  intro table n x
  have inserted := comes.insertEntry (fun _ w => w) id entry table n x
  cases found : table.lookup id <;>
  · simp only [found] at inserted
    exact inserted

theorem comesTo_removeEntry (drop : H.Entry → World H.Call → World H.Call) (level : LogLevel) (id : String) :
    (removeEntry drop level id).ComesTo fun s =>
      match s.1.lookup id with
      | some removed => (s.1.erase id, ((drop removed s.2).setNumberOfApplications (Table.size (s.1.erase id))).log
          level "Application removed" [("universe", .str id)])
      | none => s := by
  intro table n x
  simp only [removeEntry, Program.tableAfter, Program.effect]
  cases found : table.lookup id <;> exact ⟨rfl, rfl⟩

variable {effective : Bool}

theorem keepsTo_returns {leaves : Leaves H.Event (World H.Call)} (left : LeavesRequest leaves) :
    (returns leaves).KeepsTo handlerViews .reader none effective :=
  ⟨rfl, acts_react (.of_same (fun _ => rfl) fun _ => rfl) left⟩

/-- The whole of a reader: it looks under its only guard, acts, and returns. -/
theorem keepsTo_read {rest : Table String H.Entry → HandlerProgram H}
    (rests : ∀ table, (rest table).KeepsTo handlerViews .reader (some .read) true) :
    Program.KeepsTo handlerViews .reader none false (.lock .read (.look rest)) :=
  ⟨rfl, fun _ => rfl, fun impossible => (nomatch impossible), fun _ => rfl, rests⟩

theorem keepsTo_answers {effect : World H.Call → World H.Call} {leaves : Leaves H.Event (World H.Call)}
    (acts : RequestEffect effect) (left : LeavesRequest leaves) :
    Program.KeepsTo handlerViews .reader (some .read) true (.act (onWorld effect) (.unlock (returns leaves))) :=
  ⟨acts_onWorld_request acts, fun impossible => (nomatch impossible), keepsTo_returns left⟩

theorem keepsTo_returnsUnit : (returnsUnit (H := H)).KeepsTo handlerViews .writer none effective :=
  ⟨rfl, acts_returnsUnit⟩

theorem keepsTo_log (level : LogLevel) (message : String) (pairs : LogPairs)
    (rests : rest.KeepsTo handlerViews .writer none effective) :
    Program.KeepsTo handlerViews .writer none effective
      (.act (onWorld (·.log level message pairs)) rest) :=
  ⟨acts_onWorld_config (configEffect_log level message pairs), rests⟩

theorem keepsTo_setAppCounter (rests : rest.KeepsTo handlerViews .writer none effective) :
    (setAppCounter rest).KeepsTo handlerViews .writer none effective :=
  ⟨rfl, fun impossible => (nomatch impossible), Program.keepsTo_look_of_writer fun _ =>
    ⟨acts_onWorld_config (configEffect_setNumberOfApplications _), fun impossible => (nomatch impossible),
      rests⟩⟩

variable (H) in
theorem keepsTo_counted : (setAppCounter (returnsUnit (H := H))).KeepsTo handlerViews .writer none true :=
  keepsTo_setAppCounter keepsTo_returnsUnit

variable {drop : H.Entry → World H.Call → World H.Call}

theorem keepsTo_insertEntry (drops : ∀ entry, ConfigEffect (drop entry)) (id : String) (entry : H.Entry)
    (rests : rest.KeepsTo handlerViews .writer none true) :
    (insertEntry drop id entry rest).KeepsTo handlerViews .writer none false := by
  refine ⟨rfl, fun impossible => (nomatch impossible), Program.keepsTo_look_of_writer fun table =>
    ⟨rfl, rfl, rfl, ?_⟩⟩
  have unlocked : Program.KeepsTo handlerViews .writer (some .write) true (.unlock rest) :=
    ⟨fun impossible => (nomatch impossible), rests⟩
  cases table.lookup id with
  | none => exact unlocked
  | some replaced => exact ⟨acts_onWorld_config (drops replaced), unlocked⟩

theorem keepsTo_removeEntry (drops : ∀ entry, ConfigEffect (drop entry)) (level : LogLevel) (id : String) :
    (removeEntry drop level id).KeepsTo handlerViews .writer none false := by
  refine ⟨rfl, fun impossible => (nomatch impossible), Program.keepsTo_look_of_writer fun table => ?_⟩
  cases table.lookup id with
  | none => exact ⟨fun impossible => (nomatch impossible), keepsTo_returnsUnit⟩
  | some removed =>
    exact ⟨rfl, rfl, rfl, acts_onWorld_config (drops removed), fun impossible => (nomatch impossible),
      keepsTo_setAppCounter (keepsTo_log level _ _ keepsTo_returnsUnit)⟩

/-- Alone, a call that ends like this is a reaction, together with what it has done before. -/
theorem effect_answers {x : Executor H.Event (World H.Call)} (running : x.halted = false)
    (before effect : World H.Call → World H.Call) {leaves : Leaves H.Event (World H.Call)}
    (quiet : leaves ≠ .panic) (table : Table String H.Entry) (n : Nat) :
    Program.effect (.act (onWorld effect) (.unlock (returns leaves))) table n (onWorld before x) =
      Executor.step { x with clock := n } (.react ⟨fun w => effect (before w), leaves⟩) := by
  rw [Executor.step_react (x := { x with clock := n }) running quiet]
  exact Executor.step_react (x := { onWorld effect (onWorld before x) with clock := n }) running quiet

end HandlerProgram

/-! ## apns2 -/

namespace Apns2

open ApnsHandler

theorem configEffect_drop (notifier : Notifier) : ConfigEffect notifier.drop := by
  obtain ⟨client, topic, _ | _⟩ := notifier
  · exact configEffect_addTokenConsumers (-1)
  · exact configEffect_addCertificateConsumers (-1)

section Notification

variable (crates : Crates) (topic : String) (key : Option Bytes) (event : PushNotification)

theorem requestEffect_handleFatal (error : Error) :
    RequestEffect (ApnsProducer.handleFatal crates topic key event error) :=
  (requestEffect_publish topic key _).comp (requestEffect_countCallback _)

theorem requestEffect_handleErr (response : Response) :
    RequestEffect (ApnsProducer.handleErr crates topic key event response) := by
  obtain ⟨reason⟩ := response
  cases reason <;>
  exact (requestEffect_publish topic key _).comp
    ((requestEffect_countCallback _).comp (requestEffect_log .error _ _))

theorem requestEffect_onAnswer (answer : Answer) :
    RequestEffect (onAnswer crates topic key event answer) := by
  cases answer with
  | ok response =>
    exact (requestEffect_publish topic key _).comp ((requestEffect_log .info _ _).comp
      ((requestEffect_countCallback _).comp requestEffect_decInflight))
  | error error =>
    cases error with
    | responseError response =>
      exact (requestEffect_handleErr crates topic key event response).comp requestEffect_decInflight
    | connectionError =>
      exact (requestEffect_handleFatal crates topic key event .connectionError).comp requestEffect_decInflight
    | other debug =>
      exact (requestEffect_handleFatal crates topic key event (.other debug)).comp requestEffect_decInflight

theorem requestEffect_notify (notifier : Notifier) : RequestEffect (notifier.notify crates event) :=
  (requestEffect_startCall _).comp (requestEffect_logAll _)

theorem keepsTo_handleNotification :
    (GuardedApnsHandler.handleNotification crates topic key event).KeepsTo handlerViews .reader none false := by
  refine ⟨acts_onWorld_request requestEffect_incInflight, keepsTo_read fun notifiers => ?_⟩
  cases notifiers.lookup event.universeId with
  | none => exact keepsTo_answers (requestEffect_handleFatal crates topic key event .connectionError) trivial
  | some notifier =>
    exact keepsTo_answers (requestEffect_notify crates event notifier)
      (leavesRequest_map (requestEffect_onAnswer crates topic key event))

theorem effect_handleNotification (notifiers : Notifiers) (n : Nat) {x : Executor Answer World}
    (running : x.halted = false) :
    (GuardedApnsHandler.handleNotification crates topic key event).effect notifiers n x =
      Executor.step { x with clock := n } (.react (handleNotification crates topic notifiers key event)) := by
  have answers := effect_answers (H := apnsHandler crates topic) running
  have quiet := handleNotification_ne_panic crates topic notifiers key event
  simp only [GuardedApnsHandler.handleNotification, Program.effect]
  cases found : notifiers.lookup event.universeId with
  | none =>
    rw [handleNotification_unknown crates topic key found] at quiet ⊢
    exact answers incInflight _ quiet notifiers n
  | some notifier =>
    rw [handleNotification_known crates topic key found] at quiet ⊢
    exact answers incInflight _ quiet notifiers n

end Notification

section Config

variable (crates : Crates) (topic : String)

theorem comesTo_deleteNotifier (id : String) :
    (GuardedApnsHandler.deleteNotifier crates topic id).ComesTo (deleteNotifier id) := by
  intro table n x
  have removed := comesTo_removeEntry (H := apnsHandler crates topic) Notifier.drop .warn id table n x
  rw [deleteNotifier]
  cases found : table.lookup id <;>
  · simp only [found] at removed
    exact removed

theorem comesTo_finishUpdate (application : Application) (updated : Except Error Unit) :
    (GuardedApnsHandler.finishUpdate crates topic application updated).ComesTo fun s =>
      finishUpdate crates application (updated, s) := by
  cases updated with
  | error error => exact (comesTo_returnsUnit.act _).setAppCounter
  | ok done => exact comesTo_returnsUnit.setAppCounter

section Add

variable {crates topic} {rest : Except Error Unit → GuardedApnsHandler.Program crates topic}
  {f : Except Error Unit → Notifiers × World → Notifiers × World} (made : Except Error Client)
  (count : World → World) (notifierType : NotifierType) (id apnsTopic : String)

theorem comesTo_addNotifier (comes : ∀ updated, (rest updated).ComesTo (f updated)) :
    (GuardedApnsHandler.addNotifier made count notifierType id apnsTopic rest).ComesTo fun s =>
      match made with
      | .error error => f (.error error) s
      | .ok client => f (.ok ()) (insertNotifier (s.1, count s.2) id ⟨client, apnsTopic, notifierType⟩) := by
  intro table n x
  cases made with
  | error error => exact comes (.error error) table n x
  | ok client =>
    have inserted := (comes (.ok ())).insertEntry Notifier.drop id ⟨client, apnsTopic, notifierType⟩
    have counted := inserted.act count table n x
    simp only [insertNotifier]
    cases found : table.lookup id <;>
    · simp only [found] at counted
      exact counted

theorem keepsTo_addNotifier (counts : ConfigEffect count)
    (rests : ∀ updated effective, (rest updated).KeepsTo handlerViews .writer none effective) :
    (GuardedApnsHandler.addNotifier made count notifierType id apnsTopic rest).KeepsTo handlerViews .writer
      none false := by
  cases made with
  | error error => exact rests (.error error) false
  | ok client =>
    exact ⟨acts_onWorld_config counts, keepsTo_insertEntry configEffect_drop id _ (rests (.ok ()) true)⟩

end Add

theorem comesTo_updateToken (clients : ClientOutcomes) (application : Application) (token : IosToken) :
    (GuardedApnsHandler.updateToken crates topic clients application token).ComesTo fun s =>
      finishUpdate crates application (updateToken clients application token s) := by
  have added : (GuardedApnsHandler.addTokenNotifier clients token (toEndpoint token.endpoint) application.id
      token.apnsTopic (GuardedApnsHandler.finishUpdate crates topic application)).ComesTo fun s =>
      finishUpdate crates application
        (addTokenNotifier clients token (toEndpoint token.endpoint) application.id token.apnsTopic s) := by
    intro table n x
    simp only [GuardedApnsHandler.addTokenNotifier, addTokenNotifier, Notifier.token]
    have comes := fun made => comesTo_addNotifier made (·.addTokenConsumers 1) .token application.id
      token.apnsTopic (comesTo_finishUpdate crates topic application) table n x
    cases Client.newToken clients token.pkcs8 token.keyId token.teamId (toEndpoint token.endpoint) with
    | error error => exact comes (.error error)
    | ok client => exact comes (.ok client)
  exact added.act _

theorem comesTo_updateCertificate (clients : ClientOutcomes) (application : Application)
    (certificate : IosCertificate) :
    (GuardedApnsHandler.updateCertificate crates topic clients application certificate).ComesTo fun s =>
      finishUpdate crates application (updateCertificate clients application certificate s) := by
  have added : (GuardedApnsHandler.addCertificateNotifier clients certificate
      (toEndpoint certificate.endpoint) application.id certificate.apnsTopic
      (GuardedApnsHandler.finishUpdate crates topic application)).ComesTo fun s =>
      finishUpdate crates application (addCertificateNotifier clients certificate
        (toEndpoint certificate.endpoint) application.id certificate.apnsTopic s) := by
    intro table n x
    simp only [GuardedApnsHandler.addCertificateNotifier, addCertificateNotifier, Notifier.certificate]
    have comes := fun made => comesTo_addNotifier made (·.addCertificateConsumers 1) .certificate
      application.id certificate.apnsTopic (comesTo_finishUpdate crates topic application) table n x
    cases Client.newCertificate clients certificate.pkcs12 certificate.password
        (toEndpoint certificate.endpoint) with
    | error error => exact comes (.error error)
    | ok client => exact comes (.ok client)
  exact added.act _

/-- The program and the function go the same way. -/
theorem guarded_handleConfig_cases (clients : ClientOutcomes) (id : String) (application : Option Application) :
    (∃ x, GuardedApnsHandler.handleConfig crates topic clients id application =
          GuardedApnsHandler.deleteNotifier crates topic x ∧
        handleConfig crates clients id application = deleteNotifier x) ∨
      (∃ application' token, GuardedApnsHandler.handleConfig crates topic clients id application =
          GuardedApnsHandler.updateToken crates topic clients application' token ∧
        handleConfig crates clients id application = fun s =>
          finishUpdate crates application' (updateToken clients application' token s)) ∨
      ∃ application' certificate, GuardedApnsHandler.handleConfig crates topic clients id application =
          GuardedApnsHandler.updateCertificate crates topic clients application' certificate ∧
        handleConfig crates clients id application = fun s =>
          finishUpdate crates application' (updateCertificate clients application' certificate s) := by
  cases application with
  | none => exact .inl ⟨id, rfl, rfl⟩
  | some application =>
    simp only [GuardedApnsHandler.handleConfig, funext (handleConfig.eq_def crates clients id (some application))]
    cases application.iosConfig with
    | none => exact .inl ⟨application.id, rfl, rfl⟩
    | some iosConfig =>
      by_cases disabled : iosConfig.enabled = false
      · simp only [disabled, if_true]
        exact .inl ⟨application.id, rfl, rfl⟩
      · simp only [disabled]
        cases iosConfig.token with
        | some token => exact .inr (.inl ⟨application, token, rfl, rfl⟩)
        | none =>
          cases iosConfig.certificate with
          | some certificate => exact .inr (.inr ⟨application, certificate, rfl, rfl⟩)
          | none => exact .inl ⟨application.id, rfl, rfl⟩

theorem comesTo_handleConfig (clients : ClientOutcomes) (id : String) (application : Option Application) :
    (GuardedApnsHandler.handleConfig crates topic clients id application).ComesTo
      (handleConfig crates clients id application) := by
  rcases guarded_handleConfig_cases crates topic clients id application with
    ⟨x, guarded, called⟩ | ⟨application', token, guarded, called⟩ | ⟨application', certificate, guarded, called⟩
  · rw [guarded, called]
    exact comesTo_deleteNotifier crates topic x
  · rw [guarded, called]
    exact comesTo_updateToken crates topic clients application' token
  · rw [guarded, called]
    exact comesTo_updateCertificate crates topic clients application' certificate

theorem keepsTo_finishUpdate (application : Application) (updated : Except Error Unit) (effective : Bool) :
    (GuardedApnsHandler.finishUpdate crates topic application updated).KeepsTo handlerViews .writer none
      effective := by
  cases updated with
  | error error => exact keepsTo_setAppCounter (keepsTo_log .error _ _ keepsTo_returnsUnit)
  | ok done => exact keepsTo_setAppCounter keepsTo_returnsUnit

theorem keepsTo_handleConfig (clients : ClientOutcomes) (id : String) (application : Option Application) :
    (GuardedApnsHandler.handleConfig crates topic clients id application).KeepsTo handlerViews .writer none
      false := by
  rcases guarded_handleConfig_cases crates topic clients id application with
    ⟨x, guarded, -⟩ | ⟨application', token, guarded, -⟩ | ⟨application', certificate, guarded, -⟩
  · rw [guarded]
    exact keepsTo_removeEntry (H := apnsHandler crates topic) configEffect_drop .warn x
  · rw [guarded]
    exact keepsTo_log .info _ _ (keepsTo_addNotifier _ _ _ _ _ (configEffect_addTokenConsumers 1)
      (keepsTo_finishUpdate crates topic application'))
  · rw [guarded]
    exact keepsTo_log .info _ _ (keepsTo_addNotifier _ _ _ _ _ (configEffect_addCertificateConsumers 1)
      (keepsTo_finishUpdate crates topic application'))

end Config

end Apns2

/-! ## fcm -/

namespace Fcm

open FcmHandler

variable (crates : Crates) (topic : String)

section Notification

variable (key : Option Bytes) (event : PushNotification)

theorem requestEffect_handleNoCert : RequestEffect (FcmProducer.handleNoCert topic key event) :=
  (requestEffect_publish topic key _).comp ((requestEffect_countCallback _).comp (requestEffect_log .error _ _))

theorem requestEffect_handleResponse (response : FcmResponse) :
    RequestEffect (FcmProducer.handleResponse topic key event response) := by
  cases first : FcmProducer.firstError response with
  | none =>
    simp only [funext fun w => FcmProducer.handleResponse.eq_def topic key event response w, first]
    exact requestEffect_publish topic key _
  | some reason =>
    simp only [funext fun w => FcmProducer.handleResponse.eq_def topic key event response w, first]
    cases reason <;>
    exact (requestEffect_publish topic key _).comp
      ((requestEffect_log .error _ _).comp (requestEffect_countCallback _))

theorem requestEffect_onAnswer (answer : Answer) : RequestEffect (onAnswer topic key event answer) := by
  cases answer with
  | ok response => exact (requestEffect_handleResponse topic key event response).comp requestEffect_decInflight
  | error error =>
    exact (requestEffect_publish topic key _).comp ((requestEffect_countCallback _).comp
      ((requestEffect_log .error _ _).comp requestEffect_decInflight))

theorem requestEffect_notify (apiKey : String) : RequestEffect (Notifier.notify crates event apiKey) :=
  (requestEffect_startCall _).comp (requestEffect_logAll _)

theorem keepsTo_handleNotification :
    (GuardedFcmHandler.handleNotification crates topic key event).KeepsTo handlerViews .reader none false := by
  refine ⟨acts_onWorld_request requestEffect_incInflight, keepsTo_read fun apiKeys => ?_⟩
  cases apiKeys.lookup event.universeId with
  | none => exact keepsTo_answers (requestEffect_handleNoCert topic key event) trivial
  | some apiKey =>
    exact keepsTo_answers (requestEffect_notify crates event apiKey)
      (leavesRequest_map (requestEffect_onAnswer topic key event))

theorem effect_handleNotification (apiKeys : ApiKeys) (n : Nat)
    {x : Executor Answer World} (running : x.halted = false) :
    (GuardedFcmHandler.handleNotification crates topic key event).effect apiKeys n x =
      Executor.step { x with clock := n } (.react (handleNotification crates topic apiKeys key event)) := by
  have answers := effect_answers (H := fcmHandler crates topic) running
  have quiet := handleNotification_ne_panic crates topic apiKeys key event
  simp only [GuardedFcmHandler.handleNotification, Program.effect]
  cases found : apiKeys.lookup event.universeId with
  | none =>
    rw [handleNotification_unknown crates topic key found] at quiet ⊢
    exact answers incInflight _ quiet apiKeys n
  | some apiKey =>
    rw [handleNotification_known crates topic key found] at quiet ⊢
    exact answers incInflight _ quiet apiKeys n

end Notification

theorem comesTo_deleteKey (id : String) : (GuardedFcmHandler.deleteKey crates topic id).ComesTo (deleteKey id) := by
  intro table n x
  have removed := comesTo_removeEntry (H := fcmHandler crates topic) (fun _ w => w) .info id table n x
  rw [deleteKey]
  cases found : table.lookup id <;>
  · simp only [found] at removed
    exact removed

theorem guarded_handleConfig_cases (id : String) (application : Option Application) :
    (∃ x, GuardedFcmHandler.handleConfig crates topic id application =
          GuardedFcmHandler.deleteKey crates topic x ∧
        handleConfig id application = deleteKey x) ∨
      ∃ x apiKey pairs, GuardedFcmHandler.handleConfig crates topic id application =
          .act (onWorld (·.log .info "Updating application configuration" pairs))
            (insertEntry (fun _ w => w) x apiKey (HandlerProgram.setAppCounter returnsUnit)) ∧
        handleConfig id application = fun s => FcmHandler.setAppCounter
          (s.1.insert x apiKey, s.2.log .info "Updating application configuration" pairs) := by
  cases application with
  | none => exact .inl ⟨id, rfl, rfl⟩
  | some application =>
    simp only [GuardedFcmHandler.handleConfig, funext (handleConfig.eq_def id (some application))]
    cases application.androidConfig with
    | none => exact .inl ⟨application.id, rfl, rfl⟩
    | some androidConfig =>
      by_cases disabled : androidConfig.enabled = false
      · simp only [disabled, if_true]
        exact .inl ⟨application.id, rfl, rfl⟩
      · simp only [disabled]
        cases androidConfig.fcmApiKey with
        | none => exact .inl ⟨application.id, rfl, rfl⟩
        | some apiKey => exact .inr ⟨application.id, apiKey, _, rfl, rfl⟩

theorem comesTo_handleConfig (id : String) (application : Option Application) :
    (GuardedFcmHandler.handleConfig crates topic id application).ComesTo (handleConfig id application) := by
  rcases guarded_handleConfig_cases crates topic id application with
    ⟨x, guarded, called⟩ | ⟨x, apiKey, pairs, guarded, called⟩
  · rw [guarded, called]
    exact comesTo_deleteKey crates topic x
  · rw [guarded, called]
    have finished := (comesTo_returnsUnit (H := fcmHandler crates topic)).setAppCounter
    exact (finished.insertEntry_plain x apiKey).act _

theorem keepsTo_handleConfig (id : String) (application : Option Application) :
    (GuardedFcmHandler.handleConfig crates topic id application).KeepsTo handlerViews .writer none false := by
  have dropped : String → ConfigEffect fun w : World => w := fun _ => .of_same (fun _ => rfl) fun _ => rfl
  rcases guarded_handleConfig_cases crates topic id application with
    ⟨x, guarded, -⟩ | ⟨x, apiKey, pairs, guarded, -⟩
  · rw [guarded]
    exact keepsTo_removeEntry (H := fcmHandler crates topic) dropped .info x
  · rw [guarded]
    exact keepsTo_log .info _ _ (keepsTo_insertEntry dropped x apiKey (keepsTo_counted (fcmHandler crates topic)))

end Fcm

/-! ## web_push -/

namespace WebPush

open WebPushHandler

variable (crates : Crates) (topic : String)

section Notification

variable (key : Option Bytes) (event : PushNotification)

theorem requestEffect_handleNoCert : RequestEffect (WebPushProducer.handleNoCert topic key event) :=
  (requestEffect_publish topic key _).comp ((requestEffect_countCallback _).comp (requestEffect_log .error _ _))

theorem requestEffect_onAnswer (answer : Answer) : RequestEffect (onAnswer crates topic key event answer) := by
  cases answer with
  | ok done =>
    exact (requestEffect_publish topic key _).comp ((requestEffect_countCallback _).comp
      ((requestEffect_log .info _ _).comp requestEffect_decInflight))
  | error error =>
    exact (requestEffect_publish topic key _).comp ((requestEffect_countCallback _).comp
      ((requestEffect_log .error _ _).comp requestEffect_decInflight))

theorem requestEffect_notify (fcmApiKey : Option String) :
    RequestEffect (Notifier.notify crates event fcmApiKey) := by
  rw [funext fun w => Notifier.notify.eq_def crates event fcmApiKey w]
  cases Notifier.buildMessage crates event fcmApiKey with
  | ok message => exact requestEffect_startCall message
  | error error => exact .of_same (fun _ => rfl) fun _ => rfl

theorem keepsTo_handleNotification :
    (GuardedWebPushHandler.handleNotification crates topic key event).KeepsTo handlerViews .reader none
      false := by
  refine keepsTo_read fun fcmApiKeys => ?_
  cases fcmApiKeys.lookup event.universeId with
  | none => exact keepsTo_answers (requestEffect_handleNoCert topic key event) trivial
  | some entity =>
    exact ⟨acts_onWorld_request requestEffect_incInflight,
      keepsTo_answers (requestEffect_notify crates event entity.fcmApiKey)
        (leavesRequest_map (requestEffect_onAnswer crates topic key event))⟩

theorem effect_handleNotification (fcmApiKeys : FcmApiKeys) (n : Nat) {x : Executor Answer World}
    (running : x.halted = false) :
    (GuardedWebPushHandler.handleNotification crates topic key event).effect fcmApiKeys n x =
      Executor.step { x with clock := n } (.react (handleNotification crates topic fcmApiKeys key event)) := by
  have answers := effect_answers (H := webPushHandler crates topic) running
  have quiet := handleNotification_ne_panic crates topic fcmApiKeys key event
  simp only [GuardedWebPushHandler.handleNotification, Program.effect]
  cases found : fcmApiKeys.lookup event.universeId with
  | none =>
    rw [handleNotification_unknown crates topic key found] at quiet ⊢
    exact answers id _ quiet fcmApiKeys n
  | some entity =>
    rw [handleNotification_known crates topic key found] at quiet ⊢
    exact answers incInflight _ quiet fcmApiKeys n

end Notification

theorem comesTo_deleteKey (id : String) :
    (GuardedWebPushHandler.deleteKey crates topic id).ComesTo (deleteKey id) := by
  intro table n x
  have removed := comesTo_removeEntry (H := webPushHandler crates topic) (fun _ w => w) .info id table n x
  rw [deleteKey]
  cases found : table.lookup id <;>
  · simp only [found] at removed
    exact removed

theorem guarded_handleConfig_cases (id : String) (application : Option Application) :
    (∃ x, GuardedWebPushHandler.handleConfig crates topic id application =
          GuardedWebPushHandler.deleteKey crates topic x ∧
        handleConfig id application = deleteKey x) ∨
      ∃ x entry pairs, GuardedWebPushHandler.handleConfig crates topic id application =
          .act (onWorld (·.log .info "Updating application configuration" pairs))
            (insertEntry (fun _ w => w) x entry (HandlerProgram.setAppCounter returnsUnit)) ∧
        handleConfig id application = fun s => WebPushHandler.setAppCounter
          (s.1.insert x entry, s.2.log .info "Updating application configuration" pairs) := by
  cases application with
  | none => exact .inl ⟨id, rfl, rfl⟩
  | some application =>
    simp only [GuardedWebPushHandler.handleConfig, funext (handleConfig.eq_def id (some application))]
    cases application.webConfig with
    | none => exact .inl ⟨application.id, rfl, rfl⟩
    | some webApp =>
      by_cases disabled : webApp.enabled = false
      · simp only [disabled, if_true]
        exact .inl ⟨application.id, rfl, rfl⟩
      · simp only [disabled]
        cases webApp.fcmApiKey with
        | some apiKey => exact .inr ⟨application.id, ⟨some apiKey⟩, _, rfl, rfl⟩
        | none => exact .inr ⟨application.id, ⟨none⟩, _, rfl, rfl⟩

theorem comesTo_handleConfig (id : String) (application : Option Application) :
    (GuardedWebPushHandler.handleConfig crates topic id application).ComesTo (handleConfig id application) := by
  rcases guarded_handleConfig_cases crates topic id application with
    ⟨x, guarded, called⟩ | ⟨x, entry, pairs, guarded, called⟩
  · rw [guarded, called]
    exact comesTo_deleteKey crates topic x
  · rw [guarded, called]
    have finished := (comesTo_returnsUnit (H := webPushHandler crates topic)).setAppCounter
    exact (finished.insertEntry_plain x entry).act _

theorem keepsTo_handleConfig (id : String) (application : Option Application) :
    (GuardedWebPushHandler.handleConfig crates topic id application).KeepsTo handlerViews .writer none
      false := by
  have dropped : ApiKey → ConfigEffect fun w : World => w := fun _ => .of_same (fun _ => rfl) fun _ => rfl
  rcases guarded_handleConfig_cases crates topic id application with
    ⟨x, guarded, -⟩ | ⟨x, entry, pairs, guarded, -⟩
  · rw [guarded]
    exact keepsTo_removeEntry (H := webPushHandler crates topic) dropped .info x
  · rw [guarded]
    exact keepsTo_log .info _ _
      (keepsTo_insertEntry dropped x entry (keepsTo_counted (webPushHandler crates topic)))

end WebPush

end XorcNotifications

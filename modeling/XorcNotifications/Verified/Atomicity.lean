import XorcNotifications.Verified.GuardedHandlers

/-!
# Handler functions are atomic

The two threads of a push service run the programs of their calls, and a step of one may come
between any two steps of the other.  What they come to is a session in which the calls are made at
once, one after another, in the order in which they take effect: a notification when it looks its
tenant up, a configuration when it stores the table, and every other call when it ends.
-/

namespace XorcNotifications

open Executors KeyedTables Guards HandlerProgram

namespace PushService

variable (crates : XorcNotifications.Crates) (service : PushService)

/-! ## The calls of a service -/

theorem keepsTo_notification (key : Option Bytes) (event : PushNotification) :
    ((service.guarded crates).handleNotification key event).KeepsTo handlerViews .reader none false := by
  cases service with
  | apns2 => exact Apns2.keepsTo_handleNotification crates.apns2 crates.outputTopic key event
  | fcm => exact Fcm.keepsTo_handleNotification crates.fcm crates.outputTopic key event
  | webPush => exact WebPush.keepsTo_handleNotification crates.webPush crates.outputTopic key event

theorem keepsTo_config (clients : (service.handler crates).Clients) (id : String)
    (application : Option Application) :
    ((service.guarded crates).handleConfig clients id application).KeepsTo handlerViews .writer none false := by
  cases service with
  | apns2 => exact Apns2.keepsTo_handleConfig crates.apns2 crates.outputTopic clients id application
  | fcm => exact Fcm.keepsTo_handleConfig crates.fcm crates.outputTopic id application
  | webPush => exact WebPush.keepsTo_handleConfig crates.webPush crates.outputTopic id application

theorem keepsTo_program (call : HandlerCall (service.handler crates)) :
    ((service.guarded crates).program call).KeepsTo handlerViews call.role none false := by
  cases call with
  | notification key event => exact service.keepsTo_notification crates key event
  | config clients id application => exact service.keepsTo_config crates clients id application
  | http key event =>
    cases service <;> exact ⟨rfl, acts_react (World.requestEffect_log .warn _ []) trivial⟩
  | poll task event => exact ⟨rfl, fun n => acts_poll n task event⟩
  | ignored record => exact ⟨rfl, acts_react (World.requestEffect_logAll record.toList) trivial⟩

def operations : Operations (HandlerCall (service.handler crates))
    (Table String (service.handler crates).Entry)
    (Executor (service.handler crates).Event (World (service.handler crates).Call)) where
  program := (service.guarded crates).program
  role := HandlerCall.role
  views := handlerViews
  keepsTo := service.keepsTo_program crates

theorem effect_notification (key : Option Bytes) (event : PushNotification)
    (tenants : Table String (service.handler crates).Entry) (n : Nat)
    {x : Executor (service.handler crates).Event (World (service.handler crates).Call)}
    (running : x.halted = false) :
    ((service.guarded crates).handleNotification key event).effect tenants n x =
      Executor.step { x with clock := n } (.react ((service.handler crates).handleNotification tenants key event)) := by
  cases service with
  | apns2 => exact Apns2.effect_handleNotification crates.apns2 crates.outputTopic key event tenants n running
  | fcm => exact Fcm.effect_handleNotification crates.fcm crates.outputTopic key event tenants n running
  | webPush =>
    exact WebPush.effect_handleNotification crates.webPush crates.outputTopic key event tenants n running

theorem comesTo_config (clients : (service.handler crates).Clients) (id : String)
    (application : Option Application) :
    ((service.guarded crates).handleConfig clients id application).ComesTo
      ((service.handler crates).handleConfig clients id application) := by
  cases service with
  | apns2 => exact Apns2.comesTo_handleConfig crates.apns2 crates.outputTopic clients id application
  | fcm => exact Fcm.comesTo_handleConfig crates.fcm crates.outputTopic id application
  | webPush => exact WebPush.comesTo_handleConfig crates.webPush crates.outputTopic id application

/-- Alone, the program of a call is the step of the session. -/
theorem atomically_eq_step (s : Session (service.handler crates)) (running : s.executor.halted = false)
    (call : HandlerCall (service.handler crates)) :
    (service.operations crates).atomically (s.tenants, s.executor) s.executor.clock call =
      ((s.step call).tenants, (s.step call).executor) := by
  refine Prod.ext ?_ ?_
  · have still := fun reads : call.role = .reader =>
      Program.tableAfter_of_keepsTo (service.keepsTo_program crates call) (.inr reads) s.tenants
    cases call with
    | config clients id application =>
      exact (service.comesTo_config crates clients id application s.tenants 0 s.executor).1
    | notification key event => exact still rfl
    | http key event => exact still rfl
    | poll task event => exact still rfl
    | ignored record => exact still rfl
  · cases call with
    | notification key event =>
      exact service.effect_notification crates key event s.tenants s.executor.clock running
    | config clients id application =>
      exact (service.comesTo_config crates clients id application s.tenants _ s.executor).2
    | http key event => rfl
    | poll task event => rfl
    | ignored record => rfl

/-- No call of a push service panics, so that the clock counts the calls. -/
theorem clock_run (calls : List (HandlerCall (service.handler crates))) :
    ((Session.start (service.handler crates)).run calls).executor.clock = calls.length ∧
      ((Session.start (service.handler crates)).run calls).executor.halted = false := by
  have calm : Calm ((Session.start (service.handler crates)).trace calls) := by
    intro r member panics
    obtain ⟨tenants, call, -, reacts⟩ := Session.mem_trace member
    exact ((Service.push service).leaves_eq_panic_iff crates tenants reacts.symm).mp panics
  obtain ⟨-, clock, running⟩ := run_tasks calm World.init
  rw [Session.executor_run]
  rw [Session.length_trace] at clock
  exact ⟨clock, running⟩

theorem serial_eq_run (order : List (HandlerCall (service.handler crates))) :
    (service.operations crates).serial (∅, Executor.start World.init) order =
      (((Session.start (service.handler crates)).run order).tenants,
        ((Session.start (service.handler crates)).run order).executor) := by
  induction order using List.reverseRecOn with
  | nil => rfl
  | append_singleton order call inductionHypothesis =>
    obtain ⟨clock, running⟩ := service.clock_run crates order
    rw [Operations.serial_concat, inductionHypothesis, ← clock,
      service.atomically_eq_step crates _ running, Session.run_concat]

end PushService

/-! ## The two threads -/

namespace PushService

variable (crates : XorcNotifications.Crates) (service : PushService)

abbrev Guarded := Guards.State (HandlerCall (service.handler crates)) (Table String (service.handler crates).Entry)
  (Executor (service.handler crates).Event (World (service.handler crates).Call))

/-- Both threads idle, no tenants, and nothing has happened. -/
def guardedStart : service.Guarded crates := .start ∅ (Executor.start World.init)

/-- The state after some steps of the two threads, if they can be taken. -/
def guardedRun (actions : List (Action (HandlerCall (service.handler crates)))) :
    Option (service.Guarded crates) :=
  (service.operations crates).step.run (service.guardedStart crates) actions

theorem follows_guardedRun {actions : List (Action (HandlerCall (service.handler crates)))}
    {s : service.Guarded crates} (ran : service.guardedRun crates actions = some s) :
    (service.operations crates).Follows (∅, Executor.start World.init) s :=
  Operations.follows_of_run (Operations.follows_start _ sound_start) ran

end PushService

/-- Whatever the two threads have done, step by step and in any interleaving, the calls that have
    taken effect make up a session, in an order that keeps that of each thread and only grows at
    its end.  The table is the one of the session, and so is the side of the world of a thread
    that is between two calls. -/
theorem guarded_runs_are_sessions (crates : XorcNotifications.Crates) (service : PushService)
    {actions : List (Action (HandlerCall (service.handler crates)))} {s : service.Guarded crates}
    (ran : service.guardedRun crates actions = some s) :
    let session := (Session.start (service.handler crates)).run s.order
    s.table = session.tenants ∧
      (s.threads .reader = none → s.world.world.requestSide = session.world.requestSide ∧
        s.world.tasks = session.executor.tasks) ∧
      (s.threads .writer = none → s.world.world.configSide = session.world.configSide) ∧
      (∀ role, s.order.filter (HandlerCall.role · = role) ++ Operations.pending (s.threads role) =
        (service.operations crates).begun role actions) ∧
      ∀ before s', before <+: actions → service.guardedRun crates before = some s' → s'.order <+: s.order := by
  intro session
  have follows := service.follows_guardedRun crates ran
  have serial := service.serial_eq_run crates s.order
  refine ⟨?_, fun idle => ?_, fun idle => ?_, fun role => ?_, fun before s' begins ranBefore => ?_⟩
  · rw [follows.table, serial]
  · have agrees := follows.agrees .reader
    rw [idle, serial] at agrees
    exact ⟨agrees.side, agrees.tasks⟩
  · have agrees := follows.agrees .writer
    rw [idle, serial] at agrees
    exact agrees
  · have known : (service.operations crates).known role s = _ := Operations.known_of_run sound_start ran role
    exact known
  · obtain ⟨later, rfl⟩ := begins
    rw [PushService.guardedRun, Machines.Machine.run_append] at ran
    obtain ⟨reached, ranReached, ranLater⟩ := Option.bind_eq_some_iff.mp ran
    obtain rfl := Option.some.inj (ranReached.symm.trans ranBefore)
    exact Operations.order_prefix_run ranLater

abbrev guardedCrates : Crates := sampleCrates (sampleProtobuf "notification.PushNotification" none none none)

/-- A notification is begun before its tenant is stored, and looks the tenant up afterwards, while
    the configuration has still to set its gauge. -/
def interleavedCalls : List (Action (HandlerCall (PushService.fcm.handler guardedCrates))) :=
  [.call (.notification none samplePush), .step .reader,
    .call (.config () "A" (some (sampleApplication "A"))), .step .writer, .step .writer, .step .writer,
    .step .writer, .step .writer, .step .reader, .step .writer, .step .reader, .step .reader, .step .reader,
    .step .reader]

theorem interleavedCalls_are_a_session :
    ∃ s, PushService.fcm.guardedRun guardedCrates interleavedCalls = some s ∧
      s.table = ((Session.start _).run s.order).tenants ∧
      s.world.tasks = ((Session.start _).run s.order).executor.tasks ∧
      s.order.length = 2 ∧ s.world.tasks.length = 1 := by
  have session := @guarded_runs_are_sessions guardedCrates .fcm interleavedCalls _ rfl
  exact ⟨_, rfl, session.1, (session.2.1 rfl).2, rfl, rfl⟩

/-- No guard for writing is held beside another one, and however many calls have been begun, the
    threads can end them. -/
theorem guarded_runs_settle (crates : XorcNotifications.Crates) (service : PushService)
    {actions : List (Action (HandlerCall (service.handler crates)))} {s : service.Guarded crates}
    (ran : service.guardedRun crates actions = some s) :
    (∀ role, s.held role = some .write → s.held role.other = none) ∧ (service.operations crates).Settles s := by
  have follows := service.follows_guardedRun crates ran
  exact ⟨fun role => (follows.apart role).1, follows.settles⟩

/-- The notification waits for the guard that the configuration holds for writing. -/
theorem interleavedCalls_settle :
    ∃ s, PushService.fcm.guardedRun guardedCrates (interleavedCalls.take 7) = some s ∧
      s.held .writer = some .write ∧ s.held .reader = none ∧
      (PushService.fcm.operations guardedCrates).step s (.step .reader) = none ∧
      (PushService.fcm.operations guardedCrates).Settles s := by
  have settles := @guarded_runs_settle guardedCrates .fcm (interleavedCalls.take 7) _ rfl
  exact ⟨_, rfl, rfl, settles.1 .writer rfl, rfl, settles.2⟩

end XorcNotifications

import XorcNotifications.Verified.HandlerEffects

/-!
# The gauge of calls in flight

The gauge goes up before a handler knows whether there is anything to call, and down when
a call has completed.  It is exact until a handler returns in between: apns2 and fcm for
an unknown tenant, http_requester for a request that cannot be built.  web_push looks the
tenant up first, but builds the message after the gauge has gone up.
-/

namespace XorcNotifications

open Executors KeyedTables World

section Counting

variable {H : EventHandler} (calls : List (HandlerCall H))

/-- How many calls the handler has started at its provider while it handled the one at
    position `i`. -/
def callsStarted (i : Nat) : Nat :=
  ((Session.start H).run (calls.take (i + 1))).world.calls.length -
    ((Session.start H).run (calls.take i)).world.calls.length

/-- The calls that were started and have not completed: those that a task still waits for. -/
def openCalls : Nat :=
  (((Session.start H).run calls).executor.tasks.map fun task => callsStarted calls task.id).sum

/-- The gauge is the number of calls that were started and have not completed, so it is not
    negative, and it is zero when every handled event has been answered. -/
def GaugeExact : Prop :=
  let s := (Session.start H).run calls
  s.world.inflight = openCalls calls ∧
    0 ≤ s.world.inflight ∧ (s.executor.tasks = [] → s.world.inflight = 0)

theorem gaugeExact_iff : GaugeExact calls ↔ ((Session.start H).run calls).world.inflight = openCalls calls := by
  refine ⟨And.left, fun counts => ⟨counts, by omega, fun nothing => ?_⟩⟩
  rw [counts, openCalls, nothing]
  rfl

variable {calls}

theorem callsStarted_take {i n : Nat} (bound : i < n) : callsStarted (calls.take n) i = callsStarted calls i := by
  rw [callsStarted, callsStarted, List.take_take, List.take_take, Nat.min_eq_left bound,
    Nat.min_eq_left (Nat.le_of_lt bound)]

theorem callsStarted_of_step {i : Nat} {call : HandlerCall H} (atI : calls[i]? = some call) :
    callsStarted calls i =
      (((Session.start H).run (calls.take i)).step call).world.calls.length -
        ((Session.start H).run (calls.take i)).world.calls.length := by
  rw [callsStarted, List.take_add_one, atI, Option.toList_some, Session.run_concat]

end Counting

namespace Service

variable (crates : Crates) (service : Service)

/-- The calls that move the gauge up and start nothing at a provider. -/
def leaks (crates : Crates) : (service : Service) → Table String (service.handler crates).Entry →
    HandlerCall (service.handler crates) → Prop
  | .push .apns2, notifiers, .notification _ event => notifiers.lookup event.universeId = none
  | .push .fcm, apiKeys, .notification _ event => apiKeys.lookup event.universeId = none
  | .push .webPush, fcmApiKeys, .notification _ event => ∃ entity error,
      fcmApiKeys.lookup event.universeId = some entity ∧
        WebPush.Notifier.buildMessage crates.webPush event entity.fcmApiKey = .error error
  | .httpRequester, _, .http _ event => HttpRequester.buildable crates.http event = false
  | _, _, _ => False

/-- A call that does not leak counts its task in the gauge, and starts one call at a provider for
    it. -/
theorem counts_toStep {tenants : Table String (service.handler crates).Entry}
    {call : HandlerCall (service.handler crates)} (clean : ¬ service.leaks crates tenants call)
    {r : Reaction (service.handler crates).Event (World (service.handler crates).Call)}
    (reacts : call.toStep tenants = .react r) :
    CountsTask inflight r ∧
      (r.leaves.signal ≠ none → ∀ w, (r.now w).calls.length = w.calls.length + 1) := by
  cases call with
  | notification key event =>
    cases reacts
    cases service with
    | push service =>
      cases service with
      | apns2 =>
        exact ⟨Apns2.countsTask_handleNotification crates.apns2 crates.outputTopic key clean,
          fun _ => Apns2.calls_handleNotification crates.apns2 crates.outputTopic key clean⟩
      | fcm =>
        exact ⟨Fcm.countsTask_handleNotification crates.fcm crates.outputTopic key clean,
          fun _ => Fcm.calls_handleNotification crates.fcm crates.outputTopic key clean⟩
      | webPush =>
        refine ⟨WebPush.countsTask_handleNotification crates.webPush crates.outputTopic tenants key event,
          fun waits => ?_⟩
        replace waits : (WebPush.WebPushHandler.handleNotification crates.webPush crates.outputTopic tenants key
          event).leaves.signal ≠ none := waits
        rw [WebPush.signal_handleNotification, ne_eq, Option.map_eq_none_iff] at waits
        obtain ⟨entity, known⟩ := Option.ne_none_iff_exists'.mp waits
        cases built : WebPush.Notifier.buildMessage crates.webPush event entity.fcmApiKey with
        | error error => exact absurd ⟨entity, error, known, built⟩ clean
        | ok message =>
          exact WebPush.calls_handleNotification crates.webPush crates.outputTopic key known built
    | httpRequester => exact ⟨countsTask_nothing fun w => rfl, absurd rfl⟩
  | http key event =>
    cases reacts
    cases service with
    | push service => cases service <;> exact ⟨countsTask_nothing fun w => rfl, absurd rfl⟩
    | httpRequester =>
      have built := Bool.eq_true_of_not_eq_false clean
      exact ⟨HttpRequester.countsTask_handleHttp crates.outputTopic key built,
        fun _ => HttpRequester.calls_handleHttp crates.outputTopic key built⟩
  | ignored record =>
    cases reacts
    exact ⟨countsTask_nothing fun w => rfl, absurd rfl⟩
  | config clients id application => cases reacts
  | poll task event => cases reacts

theorem toStep_of_leaks {tenants : Table String (service.handler crates).Entry}
    {call : HandlerCall (service.handler crates)} (leaking : service.leaks crates tenants call) :
    ∃ r, call.toStep tenants = .react r ∧ ∀ w, (r.now w).inflight = w.inflight + 1 ∧
      (r.now w).calls = w.calls := by
  cases service with
  | push service =>
    cases call with
    | notification key event =>
      refine ⟨_, rfl, ?_⟩
      cases service with
      | apns2 => exact Apns2.leaks_handleNotification crates.apns2 crates.outputTopic key leaking
      | fcm => exact Fcm.leaks_handleNotification crates.fcm crates.outputTopic key leaking
      | webPush =>
        obtain ⟨entity, error, known, unbuilt⟩ := leaking
        exact WebPush.leaks_handleNotification crates.webPush crates.outputTopic key known unbuilt
    | _ => cases service <;> exact leaking.elim
  | httpRequester =>
    cases call with
    | http key event =>
      have unbuilt := (HttpRequester.request_eq_none_iff crates.http event).mpr leaking
      have panics := HttpRequester.handleHttp_unbuilt crates.outputTopic key unbuilt
      exact ⟨_, congrArg Step.react panics, fun w => ⟨rfl, rfl⟩⟩
    | _ => exact leaking.elim

theorem leaks_of_panics {tenants : Table String (service.handler crates).Entry}
    {call : HandlerCall (service.handler crates)} (panics : service.panics crates call) :
    service.leaks crates tenants call := by
  cases service with
  | push service => exact panics.elim
  | httpRequester =>
    cases call with
    | http key event => exact panics
    | _ => exact panics.elim

def Clean (calls : List (HandlerCall (service.handler crates))) : Prop :=
  ∀ (i : Nat) call, calls[i]? = some call →
    ¬ service.leaks crates ((Session.start (service.handler crates)).run (calls.take i)).tenants call

variable {crates service} {calls : List (HandlerCall (service.handler crates))}

theorem react_of_clean (clean : service.Clean crates calls)
    {r : Reaction (service.handler crates).Event (World (service.handler crates).Call)}
    (member : .react r ∈ (Session.start (service.handler crates)).trace calls) :
    r.leaves ≠ .panic ∧ CountsTask inflight r := by
  -- The step is that of a call in the state of its moment, in which it does not leak.
  obtain ⟨i, position⟩ := List.mem_iff_getElem?.mp member
  rw [Session.getElem?_trace, Option.map_eq_some_iff] at position
  obtain ⟨call, atI, reacts⟩ := position
  refine ⟨fun panics => ?_, (service.counts_toStep crates (clean i call atI) reacts).1⟩
  exact clean i call atI
    (service.leaks_of_panics crates ((service.leaves_eq_panic_iff crates _ reacts).mp panics))

theorem calm_of_clean (clean : service.Clean crates calls) :
    Calm ((Session.start (service.handler crates)).trace calls) :=
  fun _ member => (react_of_clean clean member).1

theorem inflight_of_clean (clean : service.Clean crates calls) :
    let s := (Session.start (service.handler crates)).run calls
    s.world.inflight = s.executor.tasks.length := by
  have quiet : ∀ effect, Step.background effect ∈ (Session.start (service.handler crates)).trace calls →
      ∀ w, inflight (effect w) = inflight w :=
    fun effect member w => (service.unseen_background crates member w).inflight
  have account := ledger_pending (calm_of_clean clean)
    (fun r member => (react_of_clean clean member).2) quiet World.init
  intro s
  show s.executor.world.inflight = s.executor.tasks.length
  rw [Session.executor_run]
  exact account.trans (zero_add _)

theorem clean_take {n : Nat} (before : ∀ i < n, ∀ call, calls[i]? = some call → ¬ service.leaks crates
      ((Session.start (service.handler crates)).run (calls.take i)).tenants call) :
    service.Clean crates (calls.take n) := by
  intro i call atI
  have bound : i < n := by
    have := (List.getElem?_eq_some_iff.mp atI).1
    rw [List.length_take] at this
    omega
  rw [List.getElem?_take_of_lt bound] at atI
  rw [List.take_take, Nat.min_eq_left (Nat.le_of_lt bound)]
  exact before i bound call atI

theorem running_of_clean (clean : service.Clean crates calls) :
    ((Session.start (service.handler crates)).run calls).executor.halted = false := by
  rw [Session.executor_run]
  exact (halted_eq_false_iff _ _).mpr (calm_of_clean clean)

theorem tasks_of_clean (clean : service.Clean crates calls) :
    ((Session.start (service.handler crates)).run calls).executor.tasks =
      pendingTasks ((Session.start (service.handler crates)).trace calls) := by
  rw [Session.executor_run]
  exact (run_tasks (calm_of_clean clean) World.init).1

theorem clock_of_clean (clean : service.Clean crates calls) :
    ((Session.start (service.handler crates)).run calls).executor.clock = calls.length := by
  rw [Session.executor_run, ← Session.length_trace (Session.start (service.handler crates)) calls]
  exact (run_tasks (calm_of_clean clean) World.init).2.1

theorem world_step {s : Session (service.handler crates)} (running : s.executor.halted = false)
    {call : HandlerCall (service.handler crates)}
    {r : Reaction (service.handler crates).Event (World (service.handler crates).Call)}
    (reacts : call.toStep s.tenants = .react r) :
    (s.step call).world = r.now s.world ∧
      (s.step call).executor.tasks = s.executor.tasks ++ r.leaves.spawned s.executor.clock := by
  have stepped : (s.step call).executor = s.executor.step (.react r) := by
    rw [← reacts]
    rfl
  rw [Session.world, stepped]
  by_cases panics : r.leaves = .panic
  · rw [Executor.step_panic running panics, panics]
    exact ⟨rfl, (List.append_nil _).symm⟩
  · rw [Executor.step_react running panics]
    exact ⟨rfl, rfl⟩

/-- Every task of a clean run waits for one call. -/
theorem callsStarted_of_clean (clean : service.Clean crates calls) :
    ∀ task ∈ ((Session.start (service.handler crates)).run calls).executor.tasks,
      callsStarted calls task.id = 1 := by
  intro task member
  rw [tasks_of_clean clean] at member
  obtain ⟨r, position, left⟩ := exists_react_of_taskAt (taskAt_of_mem_pendingTasks member).2
  rw [Session.getElem?_trace, Option.map_eq_some_iff] at position
  obtain ⟨call, atI, reacts⟩ := position
  have running := running_of_clean (clean_take fun i (_ : i < task.id) call atI => clean i call atI)
  have waits : r.leaves.signal ≠ none := by
    rw [left]
    nofun
  have started := (service.counts_toStep crates (clean task.id call atI) reacts).2 waits
    ((Session.start (service.handler crates)).run (calls.take task.id)).world
  rw [callsStarted_of_step atI, (world_step running reacts).1, started]
  omega

theorem openCalls_of_clean (clean : service.Clean crates calls) :
    openCalls calls = ((Session.start (service.handler crates)).run calls).executor.tasks.length := by
  rw [openCalls, List.map_congr_left (callsStarted_of_clean clean), List.map_const', List.sum_replicate_nat,
    Nat.mul_one]

/-- A call that leaks is not one more call that is open. -/
theorem openCalls_of_leak {i : Nat} (clean : service.Clean crates (calls.take i))
    {call : HandlerCall (service.handler crates)} (atI : calls[i]? = some call)
    (leaking : service.leaks crates ((Session.start (service.handler crates)).run (calls.take i)).tenants call) :
    ((Session.start (service.handler crates)).run (calls.take (i + 1))).world.inflight =
        ((Session.start (service.handler crates)).run (calls.take i)).world.inflight + 1 ∧
      openCalls (calls.take (i + 1)) = openCalls (calls.take i) := by
  obtain ⟨r, reacts, moves⟩ := service.toStep_of_leaks crates leaking
  have stepped := world_step (running_of_clean clean) reacts
  have grown : calls.take (i + 1) = calls.take i ++ [call] := by
    rw [List.take_add_one, atI, Option.toList_some]
  have inside : i < calls.length := (List.getElem?_eq_some_iff.mp atI).1
  have now : ((Session.start (service.handler crates)).run (calls.take i)).executor.clock = i := by
    rw [clock_of_clean clean, List.length_take, Nat.min_eq_left (Nat.le_of_lt inside)]
  have startsNothing : callsStarted (calls.take (i + 1)) i = 0 := by
    rw [callsStarted_take (Nat.lt_succ_self i), callsStarted_of_step atI, stepped.1, (moves _).2, Nat.sub_self]
  have earlier : ∀ task ∈ ((Session.start (service.handler crates)).run (calls.take i)).executor.tasks,
      callsStarted (calls.take (i + 1)) task.id = callsStarted (calls.take i) task.id := by
    intro task member
    rw [tasks_of_clean clean] at member
    have bound := (taskAt_of_mem_pendingTasks member).1
    rw [Session.length_trace, List.length_take, Nat.min_eq_left (Nat.le_of_lt inside)] at bound
    rw [callsStarted_take bound, callsStarted_take (Nat.lt_succ_of_lt bound)]
  have spawned : ((r.leaves.spawned i).map fun task => callsStarted (calls.take (i + 1)) task.id).sum = 0 := by
    cases r.leaves with
    | task future => simpa [Leaves.spawned] using startsNothing
    | nothing => rfl
    | panic => rfl
  constructor
  · rw [grown, Session.run_concat, stepped.1]
    exact (moves _).1
  · rw [openCalls, grown, Session.run_concat, stepped.2, now, ← grown, List.map_append, List.sum_append,
      spawned, add_zero, List.map_congr_left earlier, openCalls]

end Service

/-- The gauge is exact in every state of a run exactly if no call of the run leaks. -/
theorem inflight_exact_iff (crates : Crates) (service : Service)
    (calls : List (HandlerCall (service.handler crates))) :
    (∀ n, GaugeExact (calls.take n)) ↔ service.Clean crates calls := by
  constructor
  · intro always i
    -- The first leak would come in a state that runs and whose gauge is still exact.
    induction i using Nat.strongRecOn with
    | _ i inductionHypothesis =>
      intro call atI leaking
      have clean := Service.clean_take inductionHypothesis
      obtain ⟨moved, same⟩ := Service.openCalls_of_leak clean atI leaking
      have here := (gaugeExact_iff _).mp (always i)
      have next := (gaugeExact_iff _).mp (always (i + 1))
      rw [moved, same, here] at next
      omega
  · intro noLeak n
    have clean : service.Clean crates (calls.take n) := Service.clean_take fun i _ call atI => noLeak i call atI
    rw [gaugeExact_iff, Service.inflight_of_clean clean, Service.openCalls_of_clean clean]

/-- One notification for an unknown tenant is answered and stays in flight. -/
theorem unknown_tenant_inflight :
    ¬ GaugeExact (H := Service.handler (sampleCrates (sampleProtobuf "" none none none)) (.push .fcm))
      [.notification none samplePush] := by
  intro gauge
  obtain ⟨counts, _⟩ := gauge
  exact absurd counts (by decide)

end XorcNotifications

import XorcNotifications.Verified.HandlerEffects

/-!
# The counter of responses

Every path of every producer publishes one response and counts it under some label, but
for one: FCM's answer without an error is published and not counted.  How many responses a
run leaves uncounted is therefore the number of tasks that settle with such an answer.
-/

namespace XorcNotifications

open Futures Executors KeyedTables

/-! ## Responses that are not counted -/

theorem CounterVec.total_inc (c : CounterVec) (label : String) : (c.inc label).total = c.total + 1 := by
  obtain ⟨counters⟩ := c
  simp only [CounterVec.inc, CounterVec.total]
  induction counters with
  | nil => rfl
  | cons counter counters inductionHypothesis =>
    obtain ⟨other, n⟩ := counter
    rw [CounterVec.incList]
    split
    · simp only [List.foldr_cons]
      omega
    · simp only [List.foldr_cons, inductionHypothesis]
      omega

namespace World

variable {Call : Type}

/-- How many of the published responses have not been counted. -/
def uncounted (w : World Call) : ℤ := w.published.length - w.metrics.callbacksCounter.total

theorem Unseen.uncounted {w w' : World Call} (unseen : Unseen w w') : w'.uncounted = w.uncounted := by
  rw [World.uncounted, World.uncounted, unseen.published, unseen.counted]

theorem uncounted_of_publish {w w' : World Call} {record : FutureRecord}
    (published : w'.published = w.published ++ [record])
    (counted : w'.metrics.callbacksCounter = w.metrics.callbacksCounter) :
    w'.uncounted = w.uncounted + 1 := by
  rw [uncounted, uncounted, published, counted, List.length_append, List.length_singleton]
  omega

theorem uncounted_of_counted {w w' : World Call} {record : FutureRecord} {label : String}
    (published : w'.published = w.published ++ [record])
    (counted : w'.metrics.callbacksCounter = w.metrics.callbacksCounter.inc label) :
    w'.uncounted = w.uncounted + 0 := by
  rw [uncounted, uncounted, published, counted, CounterVec.total_inc, List.length_append,
    List.length_singleton]
  omega

end World

open World

/-- Nothing that a service other than fcm is told is left uncounted. -/
def free {ε : Type} (_ : List ε) : ℤ := 0

/-! ## apns2 -/

namespace Apns2

open ApnsHandler

variable (crates : Crates) (topic : String) (key : Option Bytes) (event : PushNotification)

theorem uncounted_onAnswer (result : Answer) (w : World) :
    (onAnswer crates topic key event result w).uncounted = w.uncounted + 0 := by
  cases result with
  | ok response => exact uncounted_of_counted rfl rfl
  | error error =>
    cases error with
    | responseError response =>
      -- With a reason or without one, there is a label.
      obtain ⟨reason⟩ := response
      cases reason <;> exact uncounted_of_counted rfl rfl
    | connectionError => exact uncounted_of_counted rfl rfl
    | other debug => exact uncounted_of_counted rfl rfl

theorem priced_handleNotification (notifiers : Notifiers) :
    Priced uncounted free (handleNotification crates topic notifiers key event) := by
  cases found : notifiers.lookup event.universeId with
  | none =>
    rw [handleNotification_unknown crates topic key found]
    exact priced_nothing fun w => (uncounted_of_counted rfl rfl).trans (add_zero _)
  | some notifier =>
    rw [handleNotification_known crates topic key found]
    exact priced_task (fun w => rfl) fun _ result _ _ => uncounted_onAnswer crates topic key event result

end Apns2

/-! ## fcm -/

namespace Fcm

open FcmHandler

/-- What FCM has told a task is a response that looks like a success. -/
def toldSuccess : List Answer → Prop
  | .ok response :: _ => FcmProducer.firstError response = none
  | _ => False

instance : DecidablePred toldSuccess
  | .ok response :: _ => inferInstanceAs (Decidable (FcmProducer.firstError response = none))
  | .error _ :: _ => .isFalse id
  | [] => .isFalse id

def price (told : List Answer) : ℤ := if toldSuccess told then 1 else 0

variable (crates : Crates) (topic : String) (key : Option Bytes) (event : PushNotification)

theorem uncounted_onAnswer (result : Answer) (later : List Answer) (w : World) :
    (onAnswer topic key event result w).uncounted = w.uncounted + price (result :: later) := by
  cases result with
  | error error => exact uncounted_of_counted rfl rfl
  | ok response =>
    cases first : FcmProducer.firstError response with
    | none =>
      simp only [onAnswer, FcmProducer.handleResponse, first, price, toldSuccess, if_true]
      exact uncounted_of_publish rfl rfl
    | some reason =>
      simp only [onAnswer, FcmProducer.handleResponse, first, price, toldSuccess, reduceCtorEq, if_false]
      cases reason <;> exact uncounted_of_counted rfl rfl

/-- The call gives the first answer that is reported. -/
theorem answer_eq_head {told : List Answer} {result : Answer} {n : Nat}
    (resolved : answer.resolve told = some (result, n)) : ∃ later, told = result :: later := by
  cases told with
  | nil => cases resolved
  | cons first later =>
    cases resolved
    exact ⟨later, rfl⟩

theorem priced_handleNotification (apiKeys : ApiKeys) :
    Priced uncounted price (handleNotification crates topic apiKeys key event) := by
  cases found : apiKeys.lookup event.universeId with
  | none =>
    rw [handleNotification_unknown crates topic key found]
    exact priced_nothing fun w => (uncounted_of_counted rfl rfl).trans (add_zero _)
  | some apiKey =>
    rw [handleNotification_known crates topic key found]
    refine priced_task (fun w => rfl) fun told result n resolved w => ?_
    obtain ⟨later, rfl⟩ := answer_eq_head resolved
    exact uncounted_onAnswer topic key event result later w

end Fcm

/-! ## web_push -/

namespace WebPush

open WebPushHandler

variable (crates : Crates) (topic : String) (key : Option Bytes) (event : PushNotification)

theorem priced_handleNotification (fcmApiKeys : FcmApiKeys) :
    Priced uncounted free (handleNotification crates topic fcmApiKeys key event) := by
  cases found : fcmApiKeys.lookup event.universeId with
  | none =>
    rw [handleNotification_unknown crates topic key found]
    exact priced_nothing fun w => (uncounted_of_counted rfl rfl).trans (add_zero _)
  | some entity =>
    rw [handleNotification_known crates topic key found]
    refine priced_task (fun w => ?_) fun _ result _ _ w => ?_
    · exact (unseen_notify crates event entity.fcmApiKey w.incInflight).uncounted
    · cases result <;> exact uncounted_of_counted rfl rfl

end WebPush

/-! ## http_requester -/

namespace HttpRequester

open HttpRequestHandler

theorem priced_handleHttp (crates : Crates) (topic : String) (key : Option Bytes) (event : HttpRequest) :
    Priced uncounted free (handleHttp crates topic key event) := by
  cases called : Requester.request crates event with
  | none =>
    rw [handleHttp_unbuilt topic key called]
    exact priced_panic fun w => rfl
  | some call =>
    rw [handleHttp_built topic key called]
    exact priced_task (fun w => rfl) fun _ result _ _ w => uncounted_of_counted rfl rfl

end HttpRequester

/-! ## All services -/

namespace Service

variable (crates : Crates) (service : Service)

/-- What is left uncounted when a task settles that has been told this. -/
def price (crates : Crates) : (service : Service) → List (service.handler crates).Event → ℤ
  | .push .fcm => Fcm.price
  | .push .apns2 => free
  | .push .webPush => free
  | .httpRequester => free

/-- The call settles a task of fcm with a response that looks like a success. -/
def settlesUncounted (crates : Crates) : (service : Service) → Session (service.handler crates) →
    HandlerCall (service.handler crates) → Prop
  | .push .fcm, s, call => ∃ told, s.executor.settledBy (call.toStep s.tenants) = some told ∧ Fcm.toldSuccess told
  | _, _, _ => False

theorem priced_toStep (tenants : Table String (service.handler crates).Entry)
    {call : HandlerCall (service.handler crates)}
    {r : Reaction (service.handler crates).Event (World (service.handler crates).Call)}
    (reacts : call.toStep tenants = .react r) : Priced uncounted (service.price crates) r := by
  cases call with
  | notification key event =>
    cases reacts
    cases service with
    | push service =>
      cases service with
      | apns2 => exact Apns2.priced_handleNotification crates.apns2 crates.outputTopic key event tenants
      | fcm => exact Fcm.priced_handleNotification crates.fcm crates.outputTopic key event tenants
      | webPush => exact WebPush.priced_handleNotification crates.webPush crates.outputTopic key event tenants
    | httpRequester => exact priced_nothing fun w => rfl
  | http key event =>
    cases reacts
    cases service with
    | push service => cases service <;> exact priced_nothing fun w => rfl
    | httpRequester => exact HttpRequester.priced_handleHttp crates.http crates.outputTopic key event
  | ignored record =>
    cases reacts
    exact priced_nothing fun w => rfl
  | config clients id application => cases reacts
  | poll task event => cases reacts

theorem prices_run (calls : List (HandlerCall (service.handler crates))) :
    ∀ task ∈ ((Session.start (service.handler crates)).run calls).executor.tasks,
      Prices uncounted (service.price crates) task.future := by
  rw [Session.executor_run]
  refine Executors.prices_run (fun r member => ?_) World.init
  obtain ⟨tenants, call, -, reacts⟩ := Session.mem_trace member
  exact service.priced_toStep crates tenants reacts.symm

/-- One call of a run leaves uncounted what the task that it settles costs. -/
theorem uncounted_step (calls : List (HandlerCall (service.handler crates)))
    (call : HandlerCall (service.handler crates)) :
    let s := (Session.start (service.handler crates)).run calls
    (s.step call).world.uncounted =
      s.world.uncounted + (s.executor.settledBy (call.toStep s.tenants)).elim 0 (service.price crates) := by
  refine price_step (service.prices_run crates calls) (fun r => service.priced_toStep crates _) ?_
  intro effect background w
  cases call with
  | config clients id application =>
    cases background
    exact (service.unseen_handleConfig crates clients id application (_, w)).uncounted
  | notification key event => cases background
  | http key event => cases background
  | poll task event => cases background
  | ignored record => cases background

theorem cost_of_settlesUncounted {s : Session (service.handler crates)}
    {call : HandlerCall (service.handler crates)} (settles : service.settlesUncounted crates s call) :
    (s.executor.settledBy (call.toStep s.tenants)).elim 0 (service.price crates) = 1 := by
  cases service with
  | httpRequester => exact settles.elim
  | push service =>
    cases service with
    | apns2 => exact settles.elim
    | webPush => exact settles.elim
    | fcm =>
      obtain ⟨told, settled, success⟩ := settles
      rw [settled]
      exact if_pos success

theorem cost_of_not_settlesUncounted {s : Session (service.handler crates)}
    {call : HandlerCall (service.handler crates)} (clean : ¬ service.settlesUncounted crates s call) :
    (s.executor.settledBy (call.toStep s.tenants)).elim 0 (service.price crates) = 0 := by
  cases settled : s.executor.settledBy (call.toStep s.tenants) with
  | none => rfl
  | some told =>
    cases service with
    | httpRequester => rfl
    | push service =>
      cases service with
      | apns2 => rfl
      | webPush => rfl
      | fcm => exact if_neg fun success => clean ⟨told, settled, success⟩

/-- No call of the run settles a task with an answer that is not counted. -/
def AllCounted (calls : List (HandlerCall (service.handler crates))) : Prop :=
  ∀ (i : Nat) call, calls[i]? = some call → ¬ service.settlesUncounted crates
    ((Session.start (service.handler crates)).run (calls.take i)) call

theorem allCounted_concat_iff (calls : List (HandlerCall (service.handler crates)))
    (call : HandlerCall (service.handler crates)) :
    service.AllCounted crates (calls ++ [call]) ↔ service.AllCounted crates calls ∧
      ¬ service.settlesUncounted crates ((Session.start (service.handler crates)).run calls) call := by
  constructor
  · intro counted
    refine ⟨fun i earlier position => ?_, ?_⟩
    · have bound := (List.getElem?_eq_some_iff.mp position).1
      have here := counted i earlier (by rw [List.getElem?_append_left bound, position])
      rwa [List.take_append_of_le_length (Nat.le_of_lt bound)] at here
    · have last := counted calls.length call List.getElem?_concat_length
      rwa [List.take_left] at last
  · rintro ⟨counted, last⟩ i other position
    rcases Nat.lt_or_ge i calls.length with inside | beyond
    · rw [List.getElem?_append_left inside] at position
      rw [List.take_append_of_le_length (Nat.le_of_lt inside)]
      exact counted i other position
    · rw [List.getElem?_append_right beyond, List.getElem?_singleton] at position
      split at position
      · next same =>
        cases position
        rw [show i = calls.length by omega, List.take_left]
        exact last
      · cases position

/-- What is uncounted never becomes less, and it is nothing as long as all is counted. -/
theorem uncounted_run (calls : List (HandlerCall (service.handler crates))) :
    let s := (Session.start (service.handler crates)).run calls
    0 ≤ s.world.uncounted ∧ (s.world.uncounted = 0 ↔ service.AllCounted crates calls) := by
  induction calls using List.reverseRecOn with
  | nil =>
    refine ⟨Int.le_refl 0, iff_of_true rfl fun i call position => ?_⟩
    cases position
  | append_singleton calls call inductionHypothesis =>
    obtain ⟨nonneg, exact⟩ := inductionHypothesis
    have stepped := service.uncounted_step crates calls call
    simp only at stepped nonneg exact ⊢
    rw [Session.run_concat, stepped, allCounted_concat_iff, ← exact]
    by_cases settles : service.settlesUncounted crates ((Session.start _).run calls) call
    · rw [service.cost_of_settlesUncounted crates settles]
      exact ⟨by omega, iff_of_false (by omega) fun clean => clean.2 settles⟩
    · rw [service.cost_of_not_settlesUncounted crates settles, add_zero]
      exact ⟨nonneg, (and_iff_left settles).symm⟩

end Service

/-- Every response of the run has been counted exactly if no call of it has settled a task
    of fcm with a response that looks like a success. -/
theorem responses_counted_iff (crates : Crates) (service : Service)
    (calls : List (HandlerCall (service.handler crates))) :
    let s := (Session.start (service.handler crates)).run calls
    s.world.metrics.callbacksCounter.total = s.world.published.length ↔
      service.AllCounted crates calls := by
  intro s
  have exact : s.world.uncounted = 0 ↔ service.AllCounted crates calls :=
    (service.uncounted_run crates calls).2
  rw [← exact, World.uncounted]
  omega

/-- One notification that FCM has accepted is answered and not counted. -/
theorem accepted_push_uncounted :
    let s := (Session.start (Service.handler (sampleCrates (sampleProtobuf "" none none none))
      (.push .fcm))).run [.config () "A" (some (sampleApplication "A")), .notification none samplePush,
        .poll 1 (some (.ok ⟨none⟩))]
    ¬ s.world.metrics.callbacksCounter.total = s.world.published.length := by
  decide

end XorcNotifications

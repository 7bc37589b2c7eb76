import Mathlib.Data.Sum.Basic
import XorcNotifications.Lib.Future
import XorcNotifications.Lib.Machine

/-!
# Futures event by event

A future may be told from what one event does to it: it is resolved, or goes on as another
future.  The combinators step as their parts do, and a family of futures that steps within
itself is an automaton: it resolves as the scan of its steps.
-/

namespace Futures

open Machines

namespace Future

variable {ε α β σ : Type}

/-- The same outcome, one event later. -/
def later (resolved : Option (α × Nat)) : Option (α × Nat) :=
  resolved.map fun outcome => (outcome.1, outcome.2 + 1)

/-- Nothing is decided before the first event. -/
def Live (f : Future ε α) : Prop := f.resolve [] = none

def StepsTo (f : Future ε α) (event : ε) (next : Future ε α) : Prop :=
  ∀ rest, f.resolve (event :: rest) = later (next.resolve rest)

def EndsWith (f : Future ε α) (event : ε) (a : α) : Prop :=
  ∀ rest, f.resolve (event :: rest) = some (a, 1)

theorem Live.pos {f : Future ε α} (live : f.Live) {history : List ε} {a : α} {n : Nat}
    (resolved : f.resolve history = some (a, n)) : 0 < n := by
  rw [Nat.pos_iff_ne_zero]
  rintro rfl
  have early := (f.prompt resolved).2 [] (List.nil_prefix)
  rw [live] at early
  cases early

/-! ## Steps of the combinators -/

theorem live_scan (step : σ → ε → σ ⊕ α) (state : σ) : (scan step state).Live := rfl

theorem stepsTo_scan {step : σ → ε → σ ⊕ α} {state next : σ} {event : ε}
    (stepped : step state event = .inl next) : (scan step state).StepsTo event (scan step next) := by
  intro rest
  simp only [scan, scanResolve, stepped]
  rfl

theorem endsWith_scan {step : σ → ε → σ ⊕ α} {state : σ} {event : ε} {a : α}
    (stepped : step state event = .inr a) : (scan step state).EndsWith event a := by
  intro rest
  simp only [scan, scanResolve, stepped]

theorem stepsTo_first {pick : ε → Option α} {event : ε} (skipped : pick event = none) :
    (first pick).StepsTo event (first pick) :=
  stepsTo_scan (by rw [skipped]; rfl)

theorem endsWith_first {pick : ε → Option α} {event : ε} {a : α} (picked : pick event = some a) :
    (first pick).EndsWith event a :=
  endsWith_scan (by rw [picked]; rfl)

section Combinators

variable {f f' g g' : Future ε α} {event : ε}

theorem Live.map (live : f.Live) (h : α → β) : (f.map h).Live := by
  rw [Live, resolve_map, live]
  rfl

theorem StepsTo.map (steps : f.StepsTo event f') (h : α → β) : (f.map h).StepsTo event (f'.map h) := by
  intro rest
  rw [resolve_map, steps rest, resolve_map, later, later, Option.map_map, Option.map_map]
  rfl

theorem EndsWith.map {a : α} (ends : f.EndsWith event a) (h : α → β) : (f.map h).EndsWith event (h a) := by
  intro rest
  rw [resolve_map, ends rest]
  rfl

theorem Live.bind (live : f.Live) (k : α → Future ε β) : (f.bind k).Live := by
  simp only [Live, Future.bind, show f.resolve [] = none from live, Option.bind_none]

theorem StepsTo.bind (steps : f.StepsTo event f') (k : α → Future ε β) :
    (f.bind k).StepsTo event (f'.bind k) := by
  intro rest
  simp only [Future.bind, steps rest, later]
  cases f'.resolve rest with
  | none => rfl
  | some outcome =>
    simp only [Option.map_some, Option.bind_some, List.drop_succ_cons, Option.map_map]
    congr 1
    funext outer
    simp only [Function.comp_apply, Nat.add_right_comm]

/-- With its first future resolved, a chain goes on as the second one. -/
theorem EndsWith.bind {a : α} (ends : f.EndsWith event a) (k : α → Future ε β) :
    (f.bind k).StepsTo event (k a) := by
  intro rest
  rw [resolve_bind (ends rest)]
  simp only [List.drop_succ_cons, List.drop_zero, later, Nat.add_comm]

theorem EndsWith.of_ready {a : α} (steps : f.StepsTo event (ready a)) : f.EndsWith event a := steps

theorem Live.select (left : f.Live) (right : g.Live) : (f.select g).Live := by
  simp only [Live, Future.select, show f.resolve [] = none from left, show g.resolve [] = none from right]
  rfl

theorem StepsTo.select (left : f.StepsTo event f') (right : g.StepsTo event g') :
    (f.select g).StepsTo event (f'.select g') := by
  intro rest
  simp only [Future.select, left rest, right rest, later]
  cases f'.resolve rest with
  | none => cases g'.resolve rest <;> rfl
  | some l =>
    cases g'.resolve rest with
    | none => rfl
    | some r =>
      simp only [Option.map_some, earliest, Nat.add_le_add_iff_right]
      split <;> rfl

theorem EndsWith.select_left {a : α} (left : f.EndsWith event a) (right : g.Live) :
    (f.select g).EndsWith event a := by
  intro rest
  refine earliest_eq_some_iff.mpr (.inl ⟨left rest, ?_⟩)
  rintro ⟨b, n⟩ resolved
  exact right.pos resolved

theorem EndsWith.select_right {a : α} (left : f.StepsTo event f') (live : f'.Live)
    (right : g.EndsWith event a) : (f.select g).EndsWith event a := by
  intro rest
  refine resolve_select_right (right rest) fun b m resolved => ?_
  rw [left rest, later, Option.map_eq_some_iff] at resolved
  obtain ⟨⟨b', m'⟩, resolved, same⟩ := resolved
  cases same
  exact Nat.succ_lt_succ (live.pos resolved)

end Combinators

section Result

variable {E E' A B : Type} {f f' : Future ε (Except E A)} {event : ε}

theorem Live.mapErr (live : f.Live) (h : E → E') : (f.mapErr h).Live := live.map _

theorem Live.mapOk (live : f.Live) (h : A → B) : (f.mapOk h).Live := live.map _

theorem Live.andThen (live : f.Live) (k : A → Future ε (Except E B)) : (f.andThen k).Live := live.bind _

theorem StepsTo.mapErr (steps : f.StepsTo event f') (h : E → E') :
    (f.mapErr h).StepsTo event (f'.mapErr h) := steps.map _

theorem StepsTo.mapOk (steps : f.StepsTo event f') (h : A → B) :
    (f.mapOk h).StepsTo event (f'.mapOk h) := steps.map _

theorem StepsTo.andThen (steps : f.StepsTo event f') (k : A → Future ε (Except E B)) :
    (f.andThen k).StepsTo event (f'.andThen k) := steps.bind _

theorem EndsWith.mapErr {result : Except E A} (ends : f.EndsWith event result) (h : E → E') :
    (f.mapErr h).EndsWith event (result.mapError h) := ends.map _

theorem EndsWith.mapOk {result : Except E A} (ends : f.EndsWith event result) (h : A → B) :
    (f.mapOk h).EndsWith event (result.map h) := ends.map _

theorem EndsWith.andThen_ok {a : A} (ends : f.EndsWith event (.ok a))
    (k : A → Future ε (Except E B)) : (f.andThen k).StepsTo event (k a) := ends.bind _

theorem EndsWith.andThen_error {e : E} (ends : f.EndsWith event (.error e))
    (k : A → Future ε (Except E B)) : (f.andThen k).EndsWith event (.error e) :=
  .of_ready (ends.bind _)

end Result

/-- Whatever comes first has been the outcome since. -/
theorem outcome_first_some (polls : List (Option ε)) :
    (first some).outcome polls = polls.reduceOption.head? := by
  cases polls with
  | nil => rfl
  | cons poll polls =>
    rw [outcome]
    cases (poll :: polls).reduceOption <;> rfl

/-! ## Automata -/

/-- A family of futures that steps within itself resolves as the scan of its steps. -/
theorem resolve_eq_scan {family : σ → Future ε α} {step : σ → ε → σ ⊕ α}
    (live : ∀ state, (family state).Live)
    (steps : ∀ state event, (step state event).elim
      (fun next => (family state).StepsTo event (family next)) ((family state).EndsWith event))
    (state : σ) (history : List ε) :
    (family state).resolve history = (scan step state).resolve history := by
  induction history generalizing state with
  | nil => exact live state
  | cons event rest inductionHypothesis =>
    have stepped := steps state event
    cases next : step state event with
    | inl state' =>
      rw [next] at stepped
      rw [stepped rest, inductionHypothesis, stepsTo_scan next rest]
    | inr a =>
      rw [next] at stepped
      rw [stepped rest, endsWith_scan next rest]

/-- The automaton as a machine that is stuck where it resolves. -/
def goesOn (step : σ → ε → σ ⊕ α) : Machine σ ε := fun state event => (step state event).getLeft?

/-- A scan resolves with the first event that ends it. -/
theorem scan_eq_some_iff {step : σ → ε → σ ⊕ α} {state : σ} {history : List ε} {a : α} {n : Nat} :
    (scan step state).resolve history = some (a, n) ↔
      ∃ before event after reached, history = before ++ event :: after ∧ n = before.length + 1 ∧
        (goesOn step).run state before = some reached ∧ step reached event = .inr a := by
  induction history generalizing state n with
  | nil => simp [scan, scanResolve]
  | cons event rest inductionHypothesis =>
    cases next : step state event with
    | inl state' =>
      have stays : goesOn step state event = some state' := by rw [goesOn, next]; rfl
      rw [stepsTo_scan next rest, later, Option.map_eq_some_iff]
      constructor
      · rintro ⟨⟨b, m⟩, resolved, same⟩
        cases same
        obtain ⟨before, decisive, after, reached, rfl, rfl, ran, ended⟩ := inductionHypothesis.mp resolved
        refine ⟨event :: before, decisive, after, reached, rfl, rfl, ?_, ended⟩
        rw [Machine.run_cons, stays]
        exact ran
      · rintro ⟨before, decisive, after, reached, split, rfl, ran, ended⟩
        cases before with
        | nil =>
          cases split
          cases ran
          rw [next] at ended
          cases ended
        | cons first before =>
          cases split
          rw [Machine.run_cons, stays, Option.bind_some] at ran
          exact ⟨_, inductionHypothesis.mpr ⟨before, decisive, after, reached, rfl, rfl, ran, ended⟩, rfl⟩
    | inr b =>
      have stuck : goesOn step state event = none := by rw [goesOn, next]; rfl
      rw [endsWith_scan next rest]
      constructor
      · intro same
        cases same
        exact ⟨[], event, rest, state, rfl, rfl, rfl, next⟩
      · rintro ⟨before, decisive, after, reached, split, rfl, ran, ended⟩
        cases before with
        | nil =>
          cases split
          cases ran
          rw [next] at ended
          cases ended
          rfl
        | cons first before =>
          cases split
          rw [Machine.run_cons, stuck] at ran
          cases ran

/-- Which event that is can be told from the events up to it. -/
theorem scan_eq_some_iff_take {step : σ → ε → σ ⊕ α} {state : σ} {history : List ε} {a : α} {n : Nat} :
    (scan step state).resolve history = some (a, n) ↔
      n ≤ history.length ∧ ∃ before event reached, history.take n = before ++ [event] ∧
        (goesOn step).run state before = some reached ∧ step reached event = .inr a := by
  rw [scan_eq_some_iff]
  constructor
  · rintro ⟨before, event, after, reached, rfl, rfl, ran, ended⟩
    refine ⟨by simp, before, event, reached, ?_, ran, ended⟩
    rw [← List.singleton_append, ← List.append_assoc]
    exact List.take_left' (by simp)
  · rintro ⟨within, before, event, reached, taken, ran, ended⟩
    refine ⟨before, event, history.drop n, reached, ?_, ?_, ran, ended⟩
    · rw [← List.singleton_append, ← List.append_assoc, ← taken, List.take_append_drop]
    · have length := congrArg List.length taken
      rw [List.length_take_of_le within] at length
      simpa using length

end Future

end Futures

import Mathlib.Data.List.ReduceOption

/-!
# Futures over event histories

A future is seen from outside: it is given the events that have happened so far
and is either still pending or resolved with a value.  `resolve` also returns how
many events the future needed, so that a second future can be run on the rest and
two futures can be raced.

The field `prompt` is the contract of every future: what it resolved with was
decided by the events it counted, and nothing that happens later can change it.
-/

namespace Futures

/-- A computation driven by events of type `ε` that resolves with an `α`. -/
structure Future (ε α : Type) where
  /-- `none` while pending, else the value and the number of events that decided it. -/
  resolve : List ε → Option (α × Nat)
  /-- The counted events are there, and any history that starts with them has the
      same outcome. -/
  prompt : ∀ {history a n}, resolve history = some (a, n) →
    n ≤ history.length ∧ ∀ other, history.take n <+: other → resolve other = some (a, n)

namespace Future

variable {ε α β : Type}

/-! ## Resolution is stable -/

theorem resolve_append {f : Future ε α} {history : List ε} {a : α} {n : Nat}
    (resolved : f.resolve history = some (a, n)) (later : List ε) :
    f.resolve (history ++ later) = some (a, n) :=
  (f.prompt resolved).2 _ ((List.take_prefix n history).trans (List.prefix_append history later))

/-- What `f` resolved with on `other` it has also resolved with on `history`, when both
    histories agree on the events that decided it. -/
theorem resolve_of_agree {f : Future ε α} {history other : List ε} {a : α} {m n : Nat}
    (resolved : f.resolve other = some (a, m)) (early : m ≤ n)
    (agree : history.take n <+: other) (bound : n ≤ history.length) :
    f.resolve history = some (a, m) := by
  apply (f.prompt resolved).2
  obtain ⟨rest, rfl⟩ := agree
  rw [List.take_append_of_le_length (by rw [List.length_take]; omega), List.take_take,
    Nat.min_eq_left early]
  exact List.take_prefix m history

/-! ## Leaf futures -/

def ready (a : α) : Future ε α where
  resolve _ := some (a, 0)
  prompt := by
    intro history b n resolved
    simp only [Option.some.injEq, Prod.mk.injEq] at resolved
    obtain ⟨rfl, rfl⟩ := resolved
    exact ⟨Nat.zero_le _, fun _ _ => rfl⟩

/-- Feed the events one by one to `step` until it answers. -/
def scanResolve {σ : Type} (step : σ → ε → σ ⊕ α) : σ → List ε → Option (α × Nat)
  | _, [] => none
  | state, event :: events =>
    match step state event with
    | .inl state => (scanResolve step state events).map fun resolved => (resolved.1, resolved.2 + 1)
    | .inr a => some (a, 1)

theorem scanResolve_prompt {σ : Type} (step : σ → ε → σ ⊕ α) (state : σ)
    {history : List ε} {a : α} {n : Nat} (resolved : scanResolve step state history = some (a, n)) :
    n ≤ history.length ∧
      ∀ other, history.take n <+: other → scanResolve step state other = some (a, n) := by
  induction history generalizing state n with
  | nil => cases resolved
  | cons event events inductionHypothesis =>
    simp only [scanResolve] at resolved
    split at resolved
    -- Either the scan goes on with the tail, or this event ends it.
    next next stepped =>
      simp only [Option.map_eq_some_iff, Prod.mk.injEq, Prod.exists] at resolved
      obtain ⟨b, m, inner, rfl, rfl⟩ := resolved
      obtain ⟨bound, decided⟩ := inductionHypothesis next inner
      refine ⟨by simpa using bound, fun other agree => ?_⟩
      obtain ⟨rest, rfl⟩ := agree
      simp only [List.take_succ_cons, List.cons_append, scanResolve, stepped,
        decided _ (List.prefix_append _ rest), Option.map_some]
    next value stepped =>
      simp only [Option.some.injEq, Prod.mk.injEq] at resolved
      obtain ⟨rfl, rfl⟩ := resolved
      refine ⟨by simp, fun other agree => ?_⟩
      obtain ⟨rest, rfl⟩ := agree
      simp only [List.take_succ_cons, List.take_zero, List.cons_append, List.nil_append,
        scanResolve, stepped]

/-- A future with a state of its own, updated by every event until one resolves it. -/
def scan {σ : Type} (step : σ → ε → σ ⊕ α) (state : σ) : Future ε α where
  resolve := scanResolve step state
  prompt := scanResolve_prompt step state

/-- The future resolved by the first event that `pick` recognises. -/
def first (pick : ε → Option α) : Future ε α :=
  scan (fun _ event => (pick event).elim (.inl ()) .inr) ()

/-! ## Combinators -/

def map (g : α → β) (f : Future ε α) : Future ε β where
  resolve history := (f.resolve history).map fun resolved => (g resolved.1, resolved.2)
  prompt := by
    intro history b n resolved
    simp only [Option.map_eq_some_iff, Prod.mk.injEq, Prod.exists] at resolved
    obtain ⟨a, m, inner, rfl, rfl⟩ := resolved
    obtain ⟨bound, decided⟩ := f.prompt inner
    exact ⟨bound, fun other agree => by rw [decided other agree, Option.map_some]⟩

/-- Run a second future on the events after those the first one needed. -/
def bind (f : Future ε α) (k : α → Future ε β) : Future ε β where
  resolve history := (f.resolve history).bind fun resolved =>
    ((k resolved.1).resolve (history.drop resolved.2)).map fun outer => (outer.1, resolved.2 + outer.2)
  prompt := by
    intro history b n resolved
    simp only [Option.bind_eq_some_iff, Option.map_eq_some_iff, Prod.mk.injEq, Prod.exists] at resolved
    obtain ⟨a, m, inner, c, l, outer, rfl, rfl⟩ := resolved
    obtain ⟨innerBound, innerDecided⟩ := f.prompt inner
    obtain ⟨outerBound, outerDecided⟩ := (k a).prompt outer
    rw [List.length_drop] at outerBound
    refine ⟨by omega, fun other agree => ?_⟩
    -- The decisive events are those of the first future followed by those of the second.
    rw [List.take_add] at agree
    obtain ⟨rest, rfl⟩ := agree
    have innerAgain : f.resolve (history.take m ++ (history.drop m).take l ++ rest) = some (a, m) :=
      innerDecided _ (by rw [List.append_assoc]; exact List.prefix_append _ _)
    have dropped : (history.take m ++ (history.drop m).take l ++ rest).drop m =
        (history.drop m).take l ++ rest := by
      rw [List.append_assoc, List.drop_append_of_le_length (by rw [List.length_take]; omega),
        List.drop_take_self, List.nil_append]
    rw [innerAgain, Option.bind_some, dropped, outerDecided _ (List.prefix_append _ rest),
      Option.map_some]

/-- The outcome decided by fewer events; the left one wins a tie. -/
def earliest : Option (α × Nat) → Option (α × Nat) → Option (α × Nat)
  | none, right => right
  | left, none => left
  | some left, some right => if left.2 ≤ right.2 then some left else some right

theorem earliest_eq_some_iff {left right : Option (α × Nat)} {x : α × Nat} :
    earliest left right = some x ↔
      (left = some x ∧ ∀ y, right = some y → x.2 ≤ y.2) ∨
        (right = some x ∧ ∀ y, left = some y → x.2 < y.2) := by
  cases left with
  | none => simp [earliest]
  | some l =>
    cases right with
    | none => simp [earliest]
    | some r =>
      simp only [earliest, Option.some.injEq, forall_eq']
      split <;> constructor
      · rintro ⟨⟩; exact .inl ⟨rfl, ‹_›⟩
      · rintro (⟨rfl, _⟩ | ⟨rfl, later⟩)
        · rfl
        · omega
      · rintro ⟨⟩; exact .inr ⟨rfl, by omega⟩
      · rintro (⟨rfl, _⟩ | ⟨rfl, _⟩)
        · omega
        · rfl

/-- The outcome of whichever future resolves first.  `f` is asked first, so it wins a tie. -/
def select (f g : Future ε α) : Future ε α where
  resolve history := earliest (f.resolve history) (g.resolve history)
  prompt := by
    intro history a n resolved
    -- On an agreeing history the loser can only resolve as late as it did before.
    rcases earliest_eq_some_iff.mp resolved with ⟨left, rightLater⟩ | ⟨right, leftLater⟩
    · obtain ⟨bound, decided⟩ := f.prompt left
      refine ⟨bound, fun other agree => earliest_eq_some_iff.mpr (.inl ⟨decided other agree, ?_⟩)⟩
      rintro ⟨b, m⟩ resolvedRight
      by_contra early
      exact early (rightLater _ (resolve_of_agree resolvedRight (Nat.le_of_not_le early) agree bound))
    · obtain ⟨bound, decided⟩ := g.prompt right
      refine ⟨bound, fun other agree => earliest_eq_some_iff.mpr (.inr ⟨decided other agree, ?_⟩)⟩
      rintro ⟨b, m⟩ resolvedLeft
      by_contra early
      exact early (leftLater _ (resolve_of_agree resolvedLeft (Nat.le_of_not_lt early) agree bound))

@[simp] theorem resolve_map (g : α → β) (f : Future ε α) (history : List ε) :
    (f.map g).resolve history = (f.resolve history).map fun resolved => (g resolved.1, resolved.2) := rfl

theorem exists_of_resolve_map {g : α → β} {f : Future ε α} {history : List ε} {b : β} {n : Nat}
    (resolved : (f.map g).resolve history = some (b, n)) :
    ∃ a, f.resolve history = some (a, n) ∧ g a = b := by
  simp only [resolve_map, Option.map_eq_some_iff, Prod.mk.injEq, Prod.exists] at resolved
  obtain ⟨a, m, inner, rfl, rfl⟩ := resolved
  exact ⟨a, inner, rfl⟩

theorem map_map {γ : Type} (g : α → β) (h : β → γ) (f : Future ε α) :
    (f.map g).map h = f.map (h ∘ g) := by
  simp only [map, Option.map_map]
  rfl

/-! ## Futures with an error

`Result` futures resolve with an `Except`; these are the combinators that look at it. -/

section Result

variable {E E' A B : Type}

def mapErr (g : E → E') (f : Future ε (Except E A)) : Future ε (Except E' A) :=
  f.map (Except.mapError g)

def mapOk (g : A → B) (f : Future ε (Except E A)) : Future ε (Except E B) :=
  f.map (Except.map g)

@[simp] theorem resolve_mapErr (g : E → E') (f : Future ε (Except E A)) (history : List ε) :
    (f.mapErr g).resolve history =
      (f.resolve history).map fun resolved => (resolved.1.mapError g, resolved.2) := rfl

@[simp] theorem resolve_mapOk (g : A → B) (f : Future ε (Except E A)) (history : List ε) :
    (f.mapOk g).resolve history =
      (f.resolve history).map fun resolved => (resolved.1.map g, resolved.2) := rfl

/-- Continue with a value; an error ends the chain. -/
def andThen (f : Future ε (Except E A)) (k : A → Future ε (Except E B)) : Future ε (Except E B) :=
  f.bind fun
    | .ok a => k a
    | .error e => ready (.error e)

end Result

/-! ## Races

Which of two futures is first can be said without running them together: the one has
resolved at some event, and the other one resolves only after it. -/

/-- The future resolves only after `n` events, if at all. -/
def After (f : Future ε α) (history : List ε) (n : Nat) : Prop :=
  ∀ a m, f.resolve history = some (a, m) → n < m

theorem After.of_pending {f : Future ε α} {history : List ε} (pending : f.resolve history = none)
    (n : Nat) : f.After history n := by
  intro a m resolved
  rw [pending] at resolved
  cases resolved

theorem After.map {f : Future ε α} {history : List ε} {n : Nat} (after : f.After history n) (g : α → β) :
    (f.map g).After history n := by
  intro b m resolved
  obtain ⟨a, inner, -⟩ := exists_of_resolve_map resolved
  exact after a m inner

theorem resolve_bind {f : Future ε α} {history : List ε} {a : α} {n : Nat}
    (resolved : f.resolve history = some (a, n)) (k : α → Future ε β) :
    (f.bind k).resolve history =
      ((k a).resolve (history.drop n)).map fun outer => (outer.1, n + outer.2) := by
  simp only [Future.bind, resolved, Option.bind_some]

theorem After.select {f g : Future ε α} {history : List ε} {n : Nat} (left : f.After history n)
    (right : g.After history n) : (f.select g).After history n := by
  intro a m resolved
  rcases earliest_eq_some_iff.mp resolved with ⟨won, -⟩ | ⟨won, -⟩
  · exact left a m won
  · exact right a m won

theorem exists_of_resolve_bind {f : Future ε α} {k : α → Future ε β} {history : List ε} {b : β}
    {n : Nat} (resolved : (f.bind k).resolve history = some (b, n)) :
    ∃ a m l, f.resolve history = some (a, m) ∧ (k a).resolve (history.drop m) = some (b, l) ∧
      n = m + l := by
  simp only [Future.bind, Option.bind_eq_some_iff, Option.map_eq_some_iff, Prod.mk.injEq,
    Prod.exists] at resolved
  obtain ⟨a, m, inner, c, l, outer, rfl, rfl⟩ := resolved
  exact ⟨a, m, l, inner, outer, rfl⟩

/-- A chain takes at least as long as its first future. -/
theorem After.bind {f : Future ε α} {history : List ε} {n : Nat} (after : f.After history n)
    (k : α → Future ε β) : (f.bind k).After history n := by
  intro b total resolved
  obtain ⟨a, m, l, inner, -, rfl⟩ := exists_of_resolve_bind resolved
  have late := after a m inner
  omega

theorem resolve_select_left {f g : Future ε α} {history : List ε} {a : α} {n : Nat}
    (resolved : f.resolve history = some (a, n)) (after : g.After history n) :
    (f.select g).resolve history = some (a, n) := by
  refine earliest_eq_some_iff.mpr (.inl ⟨resolved, ?_⟩)
  intro other loser
  exact Nat.le_of_lt (after other.1 other.2 loser)

theorem resolve_select_right {f g : Future ε α} {history : List ε} {a : α} {n : Nat}
    (resolved : g.resolve history = some (a, n)) (after : f.After history n) :
    (f.select g).resolve history = some (a, n) := by
  refine earliest_eq_some_iff.mpr (.inr ⟨resolved, ?_⟩)
  intro other loser
  exact after other.1 other.2 loser

section Result

variable {E A B : Type} {f : Future ε (Except E A)} {history : List ε} {n : Nat}

theorem resolve_andThen_ok {a : A} (resolved : f.resolve history = some (.ok a, n))
    (k : A → Future ε (Except E B)) :
    (f.andThen k).resolve history =
      ((k a).resolve (history.drop n)).map fun outer => (outer.1, n + outer.2) :=
  resolve_bind resolved _

theorem resolve_andThen_error {e : E} (resolved : f.resolve history = some (.error e, n))
    (k : A → Future ε (Except E B)) : (f.andThen k).resolve history = some (.error e, n) :=
  resolve_bind resolved _

theorem After.andThen (after : f.After history n) (k : A → Future ε (Except E B)) :
    (f.andThen k).After history n :=
  after.bind _

theorem exists_of_resolve_andThen {k : A → Future ε (Except E B)} {b : Except E B}
    (resolved : (f.andThen k).resolve history = some (b, n)) :
    ∃ a m, f.resolve history = some (a, m) := by
  obtain ⟨a, m, -, inner, -, -⟩ := exists_of_resolve_bind resolved
  exact ⟨a, m, inner⟩

end Result

/-- A scan is decided by the last of the events that it counts. -/
theorem exists_event_of_scan {σ : Type} {step : σ → ε → σ ⊕ α} {state : σ} {history : List ε}
    {a : α} {n : Nat} (resolved : (scan step state).resolve history = some (a, n)) :
    ∃ i event state', n = i + 1 ∧ history[i]? = some event ∧ step state' event = .inr a := by
  simp only [scan] at resolved
  induction history generalizing state n with
  | nil => cases resolved
  | cons event events inductionHypothesis =>
    simp only [scanResolve] at resolved
    split at resolved
    next next stepped =>
      simp only [Option.map_eq_some_iff, Prod.mk.injEq, Prod.exists] at resolved
      obtain ⟨b, m, inner, rfl, rfl⟩ := resolved
      obtain ⟨i, decisive, state', rfl, position, stepped'⟩ := inductionHypothesis inner
      exact ⟨i + 1, decisive, state', rfl, position, stepped'⟩
    next value stepped =>
      simp only [Option.some.injEq, Prod.mk.injEq] at resolved
      obtain ⟨rfl, rfl⟩ := resolved
      exact ⟨0, event, state, rfl, rfl, stepped⟩

theorem exists_event_of_first {pick : ε → Option α} {history : List ε} {a : α} {n : Nat}
    (resolved : (first pick).resolve history = some (a, n)) :
    ∃ i event, n = i + 1 ∧ history[i]? = some event ∧ pick event = some a := by
  obtain ⟨i, event, -, rfl, position, stepped⟩ := exists_event_of_scan resolved
  refine ⟨i, event, rfl, position, ?_⟩
  cases picked : pick event with
  | none => simp [picked] at stepped
  | some b =>
    rw [picked] at stepped
    cases stepped
    rfl

/-! ## Outcomes of polling

An executor polls a future now and then, and some of the polls report an event.  A
future that was never polled has no outcome, whatever it would resolve with. -/

/-- The value a future has given after these polls. -/
def outcome (f : Future ε α) : List (Option ε) → Option α
  | [] => none
  | poll :: polls => (f.resolve (poll :: polls).reduceOption).map Prod.fst

theorem outcome_concat (f : Future ε α) (polls : List (Option ε)) (poll : Option ε) :
    f.outcome (polls ++ [poll]) = (f.resolve (polls ++ [poll]).reduceOption).map Prod.fst := by
  cases polls <;> rfl

theorem outcome_map (g : α → β) (f : Future ε α) (polls : List (Option ε)) :
    (f.map g).outcome polls = (f.outcome polls).map g := by
  cases polls with
  | nil => rfl
  | cons poll polls => simp only [outcome, resolve_map, Option.map_map]; rfl

/-- A future keeps its outcome however often it is polled again. -/
theorem outcome_stable {f : Future ε α} {polls : List (Option ε)} {a : α}
    (settled : f.outcome polls = some a) (poll : Option ε) : f.outcome (polls ++ [poll]) = some a := by
  cases polls with
  | nil => cases settled
  | cons first polls =>
    simp only [outcome, Option.map_eq_some_iff, Prod.exists, exists_and_right, exists_eq_right] at settled
    obtain ⟨n, resolved⟩ := settled
    rw [outcome_concat, List.reduceOption_append, resolve_append resolved, Option.map_some]

theorem exists_resolve_of_outcome {f : Future ε α} {polls : List (Option ε)} {a : α}
    (settled : f.outcome polls = some a) : ∃ history n, f.resolve history = some (a, n) := by
  cases polls with
  | nil => cases settled
  | cons first polls =>
    simp only [outcome, Option.map_eq_some_iff, Prod.exists, exists_and_right, exists_eq_right] at settled
    exact ⟨_, settled⟩

end Future

end Futures

import Mathlib.Algebra.BigOperators.Group.Finset.Piecewise
import Mathlib.Algebra.BigOperators.Group.Finset.Sigma
import Mathlib.Algebra.BigOperators.Group.Multiset.Basic
import Mathlib.Order.Monotone.Basic

/-!
# Offsets

The members of a group read a log in turns, one at a time.  A turn begins at the offset that is
committed then, or, if there is none, where the group has its place in a log of that length; and
while it lasts, any offset that it has reached may get committed.  So of a log that only grows
some messages are read again and some are skipped, and both can be told from the turns.
-/

namespace Offsets

variable {ι M P : Type}

/-- The messages from one offset up to another one. -/
def between (log : List M) (first last : Nat) : Multiset M := ((log.take last).drop first : List M)

theorem between_of_le (log : List M) {first last : Nat} (le : last ≤ first) : between log first last = 0 := by
  rw [between, Multiset.coe_eq_zero, List.drop_eq_nil_iff, List.length_take]
  omega

theorem drop_eq_drop_take_append (l : List M) {first middle : Nat} (le : first ≤ middle) :
    l.drop first = (l.take middle).drop first ++ l.drop middle := by
  rcases Nat.le_total middle l.length with inside | beyond
  · rw [← List.drop_append_of_le_length (by rw [List.length_take]; omega), List.take_append_drop]
  · rw [List.take_of_length_le beyond, List.drop_of_length_le beyond, List.append_nil]

theorem between_add_between (log : List M) {first middle last : Nat} (le : first ≤ middle) (le' : middle ≤ last) :
    between log first middle + between log middle last = between log first last := by
  rw [between, between, between, Multiset.coe_add, drop_eq_drop_take_append (log.take last) le, List.take_take,
    Nat.min_eq_left le']

/-- A reader that goes on to where the next one begins has read what the next one skips or reads
    again. -/
theorem between_add_between_cross (log : List M) {first reached next : Nat} (le : first ≤ reached)
    (le' : first ≤ next) :
    between log first reached + between log reached next =
      between log first next + between log next reached := by
  rcases Nat.le_total reached next with before | after
  · rw [between_add_between log le before, between_of_le log before, add_zero]
  · rw [between_of_le log after, add_zero, between_add_between log le' after]

/-! ## Turns -/

structure Turn (ι : Type) where
  member : ι
  start : Nat
  reached : Nat
  forward : start ≤ reached
  -- Whether its end commits what it has read.
  commits : Bool

/-- The offset that is committed before a turn, and after it. -/
def Turn.Leaves (turn : Turn ι) (before after : Option Nat) : Prop :=
  if turn.commits = true ∧ turn.start < turn.reached then after = some turn.reached
  else after = before ∨ ∃ offset, turn.start ≤ offset ∧ offset ≤ turn.reached ∧ after = some offset

/-- The turns at a log, from what is committed and the length of the log before them to what is
    committed and the length of the log after them.  `place` says where a group that has committed
    nothing begins in a log of some length. -/
inductive Turns (place : Nat → Nat) : Option Nat → Nat → List (Turn ι) → Option Nat → Nat → Prop where
  | nobody {committed : Option Nat} {length length' : Nat} (grown : length ≤ length') :
      Turns place committed length [] committed length'
  | next {committed committed' final : Option Nat} {length now length' : Nat} {turn : Turn ι}
      {rest : List (Turn ι)} (grown : length ≤ now) (starts : turn.start = committed.getD (place now))
      (leaves : turn.Leaves committed committed')
      (later : Turns place committed' (max now turn.reached) rest final length') :
      Turns place committed length (turn :: rest) final length'

/-- Where the first of the turns begins, or, if there is none, whoever comes next. -/
def beginning (last : Nat) (turns : List (Turn ι)) : Nat := turns.head?.elim last Turn.start

/-- What the turns read. -/
def covered (log : List M) (turns : List (Turn ι)) : Multiset M :=
  (turns.map fun turn => between log turn.start turn.reached).sum

/-- What a turn has read, and the next one begins with. -/
def again (log : List M) (last : Nat) : List (Turn ι) → Multiset M
  | [] => 0
  | turn :: rest => between log (beginning last rest) turn.reached + again log last rest

/-- What comes after a turn, and before the next one begins. -/
def skipped (log : List M) (last : Nat) : List (Turn ι) → Multiset M
  | [] => 0
  | turn :: rest => between log turn.reached (beginning last rest) + skipped log last rest

/-- No turn begins before an earlier one. -/
def Ascending (last : Nat) : List (Turn ι) → Prop
  | [] => True
  | turn :: rest => turn.start ≤ beginning last rest ∧ Ascending last rest

theorem Ascending.beginning_le {last : Nat} {turns : List (Turn ι)} (ascending : Ascending last turns) :
    beginning last turns ≤ last := by
  induction turns with
  | nil => exact Nat.le_refl last
  | cons turn rest inductionHypothesis =>
    obtain ⟨le, ascending⟩ := ascending
    exact Nat.le_trans le (inductionHypothesis ascending)

/-- What is read and what is skipped is everything from the first turn on, and what is read again. -/
theorem covered_add_skipped (log : List M) {last : Nat} {turns : List (Turn ι)} (ascending : Ascending last turns) :
    covered log turns + skipped log last turns =
      between log (beginning last turns) last + again log last turns := by
  induction turns with
  | nil => exact (congrArg (· + 0) (between_of_le log (Nat.le_refl last))).symm
  | cons turn rest inductionHypothesis =>
    obtain ⟨le, ascending⟩ := ascending
    have first := between_add_between_cross log turn.forward le
    have others := inductionHypothesis ascending
    have whole := between_add_between log le ascending.beginning_le
    calc covered log (turn :: rest) + skipped log last (turn :: rest)
        = (between log turn.start turn.reached + between log turn.reached (beginning last rest)) +
            (covered log rest + skipped log last rest) := add_add_add_comm ..
      _ = (between log turn.start (beginning last rest) + between log (beginning last rest) last) +
            (between log (beginning last rest) turn.reached + again log last rest) := by
          rw [first, others, add_add_add_comm]
      _ = between log (beginning last (turn :: rest)) last + again log last (turn :: rest) := by
          rw [whole]
          rfl

/-! ## What is committed -/

section Committed

variable {place : Nat → Nat} {turn : Turn ι} {turns : List (Turn ι)} {committed committed' final : Option Nat}
  {length now later length' : Nat}

theorem Turn.Leaves.cases (leaves : turn.Leaves committed committed') :
    committed' = committed ∨
      ∃ offset, turn.start ≤ offset ∧ offset ≤ turn.reached ∧ committed' = some offset := by
  rw [Turn.Leaves] at leaves
  split at leaves
  · exact .inr ⟨turn.reached, turn.forward, Nat.le_refl _, leaves⟩
  · exact leaves

theorem Turn.leaves_reached (commits : turn.commits = true) (moved : turn.start < turn.reached)
    (committed : Option Nat) : turn.Leaves committed (some turn.reached) := by
  rw [Turn.Leaves, if_pos ⟨commits, moved⟩]

/-- The next turn does not begin before this one. -/
theorem Turn.Leaves.start_le (leaves : turn.Leaves committed committed') (mono : Monotone place)
    (starts : turn.start = committed.getD (place now)) (grown : now ≤ later) :
    turn.start ≤ committed'.getD (place later) := by
  rcases leaves.cases with rfl | ⟨offset, le, -, rfl⟩
  · rw [starts]
    cases committed' with
    | none => exact mono grown
    | some offset => exact Nat.le_refl offset
  · exact le

/-- After a commit it begins where this one has got to, or beyond. -/
theorem Turn.Leaves.reached_le (leaves : turn.Leaves committed committed') (commits : turn.commits = true)
    (mono : Monotone place) (starts : turn.start = committed.getD (place now)) (grown : now ≤ later) :
    turn.reached ≤ committed'.getD (place later) := by
  rcases Nat.eq_or_lt_of_le turn.forward with same | moved
  · rw [← same]
    exact leaves.start_le mono starts grown
  · rw [Turn.Leaves, if_pos ⟨commits, moved⟩] at leaves
    rw [leaves]
    exact Nat.le_refl _

/-- A group that has a committed offset keeps one, and does not go beyond what has been read. -/
theorem Turn.Leaves.le_reached (leaves : turn.Leaves committed committed') {offset : Nat}
    (known : committed = some offset) (starts : turn.start = committed.getD (place now)) :
    ∃ offset', committed' = some offset' ∧ offset' ≤ turn.reached := by
  rcases leaves.cases with rfl | ⟨offset', -, le, rfl⟩
  · subst known
    exact ⟨offset, rfl, Nat.le_trans (Nat.le_of_eq starts.symm) turn.forward⟩
  · exact ⟨offset', rfl, le⟩

theorem Turns.beginning_eq (rounds : Turns place committed length turns final length') :
    ∃ now, length ≤ now ∧
      beginning (final.getD (place length')) turns = committed.getD (place now) := by
  cases rounds with
  | nobody grown => exact ⟨length', grown, rfl⟩
  | next grown starts => exact ⟨_, grown, starts⟩

theorem Turns.ascending (mono : Monotone place) (rounds : Turns place committed length turns final length') :
    Ascending (final.getD (place length')) turns := by
  induction rounds with
  | nobody grown => trivial
  | next grown starts leaves later inductionHypothesis =>
    obtain ⟨then', after, begins⟩ := later.beginning_eq
    refine ⟨?_, inductionHypothesis⟩
    rw [begins]
    exact leaves.start_le mono starts (Nat.le_trans (Nat.le_max_left ..) after)

/-- Nothing is read again where every turn commits what it has read. -/
theorem Turns.again_eq_zero (mono : Monotone place) (rounds : Turns place committed length turns final length')
    (commit : ∀ turn ∈ turns, turn.commits = true) (log : List M) :
    again log (final.getD (place length')) turns = 0 := by
  induction rounds with
  | nobody grown => rfl
  | next grown starts leaves later inductionHypothesis =>
    obtain ⟨then', after, begins⟩ := later.beginning_eq
    have le := leaves.reached_le (commit _ List.mem_cons_self) mono starts
      (Nat.le_trans (Nat.le_max_left ..) after)
    rw [again, begins, between_of_le log le, inductionHypothesis fun turn member =>
      commit turn (List.mem_cons_of_mem _ member)]
    rfl

/-- Nothing is skipped once an offset has been committed. -/
theorem Turns.skipped_eq_zero (rounds : Turns place committed length turns final length')
    (known : committed ≠ none) (log : List M) : skipped log (final.getD (place length')) turns = 0 := by
  induction rounds with
  | nobody grown => rfl
  | next grown starts leaves later inductionHypothesis =>
    obtain ⟨offset, known⟩ := Option.ne_none_iff_exists'.mp known
    obtain ⟨offset', keeps, le⟩ := leaves.le_reached known starts
    obtain ⟨then', -, begins⟩ := later.beginning_eq
    rw [keeps, Option.getD_some] at begins
    rw [skipped, begins, between_of_le log le, inductionHypothesis (by simp [keeps])]
    rfl

end Committed

/-! ## The logs of a topic -/

section Topic

variable [DecidableEq ι] (logs : P → List M) (turns : P → List (Turn ι))

/-- What one member has read, of all the logs. -/
def takenBy [Fintype P] (i : ι) : Multiset M := ∑ p, covered (logs p) ((turns p).filter (·.member = i))

theorem sum_covered_filter [Fintype ι] (log : List M) (turns : List (Turn ι)) :
    ∑ i, covered log (turns.filter (·.member = i)) = covered log turns := by
  induction turns with
  | nil => exact Finset.sum_const_zero
  | cons turn rest inductionHypothesis =>
    have first : ∀ i, covered log ((turn :: rest).filter (·.member = i)) =
        (if turn.member = i then between log turn.start turn.reached else 0) +
          covered log (rest.filter (·.member = i)) := by
      intro i
      by_cases same : turn.member = i <;> simp [covered, same]
    simp only [first, Finset.sum_add_distrib, inductionHypothesis]
    rw [Finset.sum_ite_eq Finset.univ turn.member, if_pos (Finset.mem_univ _)]
    rfl

theorem sum_takenBy [Fintype ι] [Fintype P] : ∑ i, takenBy logs turns i = ∑ p, covered (logs p) (turns p) := by
  simp only [takenBy]
  rw [Finset.sum_comm]
  exact Finset.sum_congr rfl fun p _ => sum_covered_filter (logs p) (turns p)

end Topic

end Offsets

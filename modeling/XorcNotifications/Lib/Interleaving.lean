import Mathlib.Data.List.Basic

/-!
# Interleavings of several sequences

Reading several sequences side by side yields one of their interleavings: each
sequence keeps its own order, and nothing else is fixed.  Elements that all live in
one of the sequences therefore come out in the same order in every interleaving.
-/

namespace Interleavings

variable {α : Type}

/-- `whole` takes its elements one by one from the fronts of `parts`. -/
inductive Interleaving : List (List α) → List α → Prop where
  | done {parts} : (∀ part ∈ parts, part = []) → Interleaving parts []
  | next {parts i a rest whole} : parts[i]? = some (a :: rest) →
      Interleaving (parts.set i rest) whole → Interleaving parts (a :: whole)

theorem Interleaving.exists_mem {parts : List (List α)} {whole : List α}
    (interleaving : Interleaving parts whole) {a : α} (member : a ∈ whole) :
    ∃ part ∈ parts, a ∈ part := by
  induction interleaving with
  | done => cases member
  | @next parts i b rest whole front _ inductionHypothesis =>
    have here := List.mem_of_getElem? front
    cases member with
    | head => exact ⟨_, here, List.mem_cons_self⟩
    | tail _ later =>
      obtain ⟨part, inside, found⟩ := inductionHypothesis later
      rcases List.mem_or_eq_of_mem_set inside with before | rfl
      · exact ⟨part, before, found⟩
      · exact ⟨b :: part, here, List.mem_cons_of_mem b found⟩

/-- All elements with the property are in one part. -/
def InOnePart (p : α → Bool) (parts : List (List α)) : Prop :=
  ∀ (i j : Nat) (part part' : List α), parts[i]? = some part → parts[j]? = some part' →
    (∃ a ∈ part, p a) → (∃ a ∈ part', p a) → i = j

theorem InOnePart.set_tail {p : α → Bool} {parts : List (List α)} (onePart : InOnePart p parts)
    {i : Nat} {a : α} {rest : List α} (front : parts[i]? = some (a :: rest)) :
    InOnePart p (parts.set i rest) := by
  have wider : ∀ (j : Nat) (part : List α), (parts.set i rest)[j]? = some part →
      ∃ part', parts[j]? = some part' ∧ ∀ b ∈ part, b ∈ part' := by
    intro j part position
    by_cases same : i = j
    · subst same
      rw [List.getElem?_set_self (List.getElem?_eq_some_iff.mp front).1] at position
      cases position
      exact ⟨_, front, fun b member => List.mem_cons_of_mem a member⟩
    · rw [List.getElem?_set_ne same] at position
      exact ⟨part, position, fun b member => member⟩
  rintro j k part part' atJ atK ⟨b, memberB, holdsB⟩ ⟨c, memberC, holdsC⟩
  obtain ⟨_, atJ, widerJ⟩ := wider j part atJ
  obtain ⟨_, atK, widerK⟩ := wider k part' atK
  exact onePart j k _ _ atJ atK ⟨b, widerJ b memberB, holdsB⟩ ⟨c, widerK c memberC, holdsC⟩

/-- Every interleaving has the elements of a one-part property in the order of that part. -/
theorem Interleaving.filter_eq {p : α → Bool} {parts : List (List α)} {whole : List α}
    (interleaving : Interleaving parts whole) (onePart : InOnePart p parts) :
    whole.filter p = (parts.map (List.filter p)).flatten := by
  induction interleaving with
  | done empty =>
    symm
    rw [List.filter_nil, List.flatten_eq_nil_iff]
    intro filtered member
    obtain ⟨part, inside, rfl⟩ := List.mem_map.mp member
    rw [empty part inside, List.filter_nil]
  | @next parts i a rest whole front _ inductionHypothesis =>
    have bound := (List.getElem?_eq_some_iff.mp front).1
    have split : parts = parts.take i ++ (a :: rest) :: parts.drop (i + 1) := by
      rw [← (List.getElem?_eq_some_iff.mp front).2, List.getElem_cons_drop, List.take_append_drop]
    -- If the element taken has the property, no other part has such elements.
    have others : p a → (parts.take i).map (List.filter p) = (parts.take i).map fun _ => [] := by
      intro holds
      refine List.map_congr_left fun part member => ?_
      obtain ⟨j, inside, rfl⟩ := List.mem_iff_getElem.mp member
      rw [List.length_take] at inside
      refine List.filter_eq_nil_iff.mpr fun b memberB holdsB => ?_
      have same := onePart j i _ (a :: rest) (List.getElem?_eq_getElem (by omega)) front
        ⟨b, by simpa using memberB, holdsB⟩ ⟨a, List.mem_cons_self, holds⟩
      omega
    rw [List.filter_cons, inductionHypothesis (onePart.set_tail front), List.set_eq_take_append_cons_drop,
      if_pos bound]
    conv_rhs => rw [split]
    simp only [List.map_append, List.map_cons, List.flatten_append, List.flatten_cons, List.filter_cons]
    split
    next holds => rw [others holds]; simp
    next => rfl

/-- Where one part has elements with the property, the others add none. -/
theorem InOnePart.flatten_filter {p : α → Bool} {parts : List (List α)} (onePart : InOnePart p parts)
    {i : Nat} {part : List α} (position : parts[i]? = some part) (here : ∃ a ∈ part, p a) :
    (parts.map (List.filter p)).flatten = part.filter p := by
  have bound := (List.getElem?_eq_some_iff.mp position).1
  have split : parts = parts.take i ++ part :: parts.drop (i + 1) := by
    rw [← (List.getElem?_eq_some_iff.mp position).2, List.getElem_cons_drop, List.take_append_drop]
  have empty : ∀ (j : Nat) (other : List α), j ≠ i → parts[j]? = some other → other.filter p = [] := by
    intro j other different atJ
    refine List.filter_eq_nil_iff.mpr fun a member holds => different ?_
    exact onePart j i other part atJ position ⟨a, member, holds⟩ here
  have before : ((parts.take i).map (List.filter p)).flatten = [] := by
    refine List.flatten_eq_nil_iff.mpr fun filtered member => ?_
    obtain ⟨other, inside, rfl⟩ := List.mem_map.mp member
    obtain ⟨j, atJ⟩ := List.mem_iff_getElem?.mp inside
    rw [List.getElem?_take, Option.ite_none_right_eq_some] at atJ
    exact empty j other (Nat.ne_of_lt atJ.1) atJ.2
  have after : ((parts.drop (i + 1)).map (List.filter p)).flatten = [] := by
    refine List.flatten_eq_nil_iff.mpr fun filtered member => ?_
    obtain ⟨other, inside, rfl⟩ := List.mem_map.mp member
    obtain ⟨j, atJ⟩ := List.mem_iff_getElem?.mp inside
    rw [List.getElem?_drop] at atJ
    exact empty (i + 1 + j) other (by omega) atJ
  rw [split, List.map_append, List.map_cons, List.flatten_append, List.flatten_cons, before, after,
    List.nil_append, List.append_nil]

/-- The parts can be read one after another. -/
theorem Interleaving.of_parts {done : List (List α)} (parts : List (List α)) (empty : ∀ part ∈ done, part = []) :
    Interleaving (done ++ parts) parts.flatten := by
  induction parts generalizing done with
  | nil => exact .done (by simpa using empty)
  | cons part parts inductionHypothesis =>
    induction part with
    | nil =>
      have more : ∀ part ∈ done ++ [[]], part = [] := by
        intro part member
        rcases List.mem_append.mp member with earlier | here
        · exact empty part earlier
        · exact List.mem_singleton.mp here
      simpa using inductionHypothesis more
    | cons a rest further =>
      have front : (done ++ (a :: rest) :: parts)[done.length]? = some (a :: rest) := by simp
      refine .next front ?_
      rw [List.set_append_right _ _ (Nat.le_refl _), Nat.sub_self]
      exact further

end Interleavings

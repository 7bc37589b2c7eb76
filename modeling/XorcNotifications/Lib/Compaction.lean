import XorcNotifications.Lib.Interleaving
import XorcNotifications.Lib.KeyedTable

/-!
# Compacted logs

A log that is compacted keeps of each key the messages from some point on, and loses the
last one only if that says the key is gone.  A table made from several such logs, read side
by side, comes out the same exactly if no entry outlives a last message of its key that says
nothing about it.  One made from the first few logs comes out the same exactly if no key of the
others has an entry.
-/

namespace Compactions

open KeyedTables Interleavings

section Logs

variable {C X : Type} [DecidableEq X] (key : C → X) (gone : C → Bool)

def hasKey (x : X) (c : C) : Bool := key c = x

/-- The messages of one key. -/
def about (x : X) (log : List C) : List C := log.filter (hasKey key x)

/-- Of each key the messages from some point on are left, and of a key that is gone
    perhaps none. -/
structure Shortens (log kept : List C) : Prop where
  suffix : ∀ x, about key x kept <:+ about key x log
  last : ∀ x c, about key x kept = [] → (about key x log).getLast? = some c → gone c = true

structure Compacts (log kept : List C) : Prop extends Shortens key gone log kept where
  sublist : kept.Sublist log

variable {key gone}

theorem mem_about {x : X} {c : C} {log : List C} : c ∈ about key x log ↔ c ∈ log ∧ key c = x := by
  simp [about, hasKey]

theorem Shortens.mem {log kept : List C} (shortens : Shortens key gone log kept) {c : C}
    (member : c ∈ kept) : c ∈ log :=
  (mem_about.mp ((shortens.suffix (key c)).subset (mem_about.mpr ⟨member, rfl⟩))).1

theorem about_cons_of_eq {x : X} {c : C} {rest : List C} (same : key c = x) :
    about key x (c :: rest) = c :: about key x rest := by
  simp [about, hasKey, same]

theorem about_cons_of_ne {x : X} {c : C} {rest : List C} (other : key c ≠ x) :
    about key x (c :: rest) = about key x rest := by
  simp [about, hasKey, other]

/-! ## The shortest log -/

variable (key gone) in
/-- Of each key the last message, if the key is not gone. -/
def compact : List C → List C
  | [] => []
  | c :: rest => if rest.any (hasKey key (key c)) || gone c then compact rest else c :: compact rest

theorem compact_sublist (log : List C) : (compact key gone log).Sublist log := by
  induction log with
  | nil => exact List.Sublist.refl []
  | cons c rest inductionHypothesis =>
    rw [compact]
    split
    · exact inductionHypothesis.cons c
    · exact inductionHypothesis.cons_cons c

theorem any_hasKey_iff {x : X} {log : List C} : log.any (hasKey key x) = true ↔ about key x log ≠ [] := by
  simp [about, List.filter_eq_nil_iff]

theorem about_compact (x : X) (log : List C) :
    about key x (compact key gone log) = ((about key x log).getLast?.filter fun c => !gone c).toList := by
  induction log with
  | nil => rfl
  | cons c rest inductionHypothesis =>
    by_cases same : key c = x
    · subst same
      rw [about_cons_of_eq rfl, compact]
      cases later : about key (key c) rest with
      | nil =>
        have isLast : rest.any (hasKey key (key c)) = false := by
          rw [← Bool.not_eq_true, any_hasKey_iff, not_ne_iff, later]
        rw [later] at inductionHypothesis
        cases isGone : gone c with
        | true => simp [isLast, isGone, inductionHypothesis, Option.filter]
        | false => simp [isLast, isGone, about_cons_of_eq, inductionHypothesis, Option.filter]
      | cons next others =>
        have more : rest.any (hasKey key (key c)) = true := by
          rw [any_hasKey_iff, later]
          exact List.cons_ne_nil _ _
        rw [if_pos (by simp [more]), inductionHypothesis, later, List.getLast?_cons_cons]
    · rw [about_cons_of_ne same, ← inductionHypothesis, compact]
      split
      · rfl
      · rw [about_cons_of_ne same]

theorem suffix_of_getLast? {l : List C} {c : C} (isLast : l.getLast? = some c) : [c] <:+ l :=
  ⟨l.dropLast, List.dropLast_append_getLast? c isLast⟩

theorem compacts_compact (log : List C) : Compacts key gone log (compact key gone log) where
  sublist := compact_sublist log
  suffix x := by
    rw [about_compact]
    cases isLast : (about key x log).getLast? with
    | none => exact List.nil_suffix
    | some c =>
      cases isGone : gone c with
      | true => simp [isGone, Option.filter]
      | false => simpa [isGone, Option.filter] using suffix_of_getLast? isLast
  last x c empty isLast := by
    rw [about_compact, isLast] at empty
    simpa [Option.filter] using empty

theorem compacts_map_compact (parts : List (List C)) :
    List.Forall₂ (Compacts key gone) parts (parts.map (compact key gone)) :=
  List.forall₂_map_right_iff.mpr (List.forall₂_same.mpr fun part _ => compacts_compact part)

/-- A message that is left is the last one of its key. -/
theorem getLast?_of_mem_compact {log : List C} {c : C} (member : c ∈ compact key gone log) :
    (about key (key c) log).getLast? = some c := by
  have here : c ∈ about key (key c) (compact key gone log) := mem_about.mpr ⟨member, rfl⟩
  rw [about_compact, Option.mem_toList, Option.filter_eq_some_iff] at here
  exact here.1

/-! ## Several logs side by side -/

section Parts

variable {parts kept : List (List C)}

theorem exists_of_kept (each : List.Forall₂ (Compacts key gone) parts kept) {i : Nat} {part : List C}
    (position : kept[i]? = some part) : ∃ whole, parts[i]? = some whole ∧ Compacts key gone whole part := by
  induction each generalizing i with
  | nil => cases position
  | cons one _ inductionHypothesis =>
    cases i with
    | zero =>
      cases position
      exact ⟨_, rfl, one⟩
    | succ i => exact inductionHypothesis position

theorem exists_kept (each : List.Forall₂ (Compacts key gone) parts kept) {i : Nat} {whole : List C}
    (position : parts[i]? = some whole) : ∃ part, kept[i]? = some part ∧ Compacts key gone whole part := by
  induction each generalizing i with
  | nil => cases position
  | cons one _ inductionHypothesis =>
    cases i with
    | zero =>
      cases position
      exact ⟨_, rfl, one⟩
    | succ i => exact inductionHypothesis position

theorem inOnePart_kept (each : List.Forall₂ (Compacts key gone) parts kept) {x : X}
    (onePart : InOnePart (hasKey key x) parts) : InOnePart (hasKey key x) kept := by
  rintro i j part part' atI atJ ⟨a, memberA, holdsA⟩ ⟨b, memberB, holdsB⟩
  obtain ⟨whole, wholeI, compacts⟩ := exists_of_kept each atI
  obtain ⟨whole', wholeJ, compacts'⟩ := exists_of_kept each atJ
  exact onePart i j whole whole' wholeI wholeJ ⟨a, compacts.sublist.subset memberA, holdsA⟩
    ⟨b, compacts'.sublist.subset memberB, holdsB⟩

/-- The messages of a key, however the logs are read. -/
theorem about_whole {x : X} {whole : List C} (onePart : InOnePart (hasKey key x) parts)
    (reads : Interleaving parts whole) : about key x whole = (parts.map (about key x)).flatten :=
  reads.filter_eq onePart

theorem about_whole_of_part {x : X} {whole : List C} (onePart : InOnePart (hasKey key x) parts)
    (reads : Interleaving parts whole) {i : Nat} {part : List C} (position : parts[i]? = some part)
    (here : about key x part ≠ []) : about key x whole = about key x part := by
  obtain ⟨c, member⟩ := List.exists_mem_of_ne_nil _ here
  rw [about_whole onePart reads]
  refine onePart.flatten_filter position ⟨c, ?_⟩
  simpa [hasKey] using mem_about.mp member

/-- A key that is in the whole is in one of the logs. -/
theorem exists_part {x : X} {whole : List C} (reads : Interleaving parts whole) (here : about key x whole ≠ []) :
    ∃ (i : Nat) (part : List C), parts[i]? = some part ∧ about key x part ≠ [] := by
  obtain ⟨c, member⟩ := List.exists_mem_of_ne_nil _ here
  obtain ⟨inside, isKey⟩ := mem_about.mp member
  obtain ⟨part, isPart, found⟩ := reads.exists_mem inside
  obtain ⟨i, position⟩ := List.mem_iff_getElem?.mp isPart
  exact ⟨i, part, position, List.ne_nil_of_mem (mem_about.mpr ⟨found, isKey⟩)⟩

/-- Compacting each log shortens what is read of them all. -/
theorem shortens_of_parts (onePart : ∀ x, InOnePart (hasKey key x) parts)
    (each : List.Forall₂ (Compacts key gone) parts kept) {whole whole' : List C}
    (reads : Interleaving parts whole) (reads' : Interleaving kept whole') :
    Shortens key gone whole whole' := by
  have onePart' := fun x => inOnePart_kept each (onePart x)
  constructor
  · intro x
    by_cases here : about key x whole' = []
    · rw [here]
      exact List.nil_suffix
    · obtain ⟨i, part, position, inside⟩ := exists_part reads' here
      obtain ⟨whole₀, position₀, compacts⟩ := exists_of_kept each position
      have inside₀ : about key x whole₀ ≠ [] := fun empty => inside (List.suffix_nil.mp (empty ▸ compacts.suffix x))
      rw [about_whole_of_part (onePart' x) reads' position inside,
        about_whole_of_part (onePart x) reads position₀ inside₀]
      exact compacts.suffix x
  · intro x c empty isLast
    have here : about key x whole ≠ [] := by
      intro none
      rw [none] at isLast
      cases isLast
    obtain ⟨i, part, position, inside⟩ := exists_part reads here
    obtain ⟨left, position', compacts⟩ := exists_kept each position
    rw [about_whole_of_part (onePart x) reads position inside] at isLast
    refine compacts.last x c ?_ isLast
    by_contra still
    rw [about_whole_of_part (onePart' x) reads' position' still] at empty
    exact still empty

/-! ### The first few logs -/

theorem inOnePart_take {x : X} (onePart : InOnePart (hasKey key x) parts) (n : Nat) :
    InOnePart (hasKey key x) (parts.take n) := by
  intro i j part part' atI atJ here here'
  rw [List.getElem?_take, Option.ite_none_right_eq_some] at atI atJ
  exact onePart i j part part' atI.2 atJ.2 here here'

/-- A key that is in one of the others is not read. -/
theorem about_take_eq_nil {x : X} {n : Nat} {whole : List C} (onePart : InOnePart (hasKey key x) parts)
    (reads : Interleaving (parts.take n) whole) {part : List C} (unread : part ∈ parts.drop n)
    (here : about key x part ≠ []) : about key x whole = [] := by
  by_contra read
  obtain ⟨i, part', position, here'⟩ := exists_part reads read
  rw [List.getElem?_take, Option.ite_none_right_eq_some] at position
  obtain ⟨j, position'⟩ := List.mem_iff_getElem?.mp unread
  rw [List.getElem?_drop] at position'
  obtain ⟨c, member⟩ := List.exists_mem_of_ne_nil _ here
  obtain ⟨c', member'⟩ := List.exists_mem_of_ne_nil _ here'
  have same := onePart i (n + j) part' part position.2 position'
    ⟨c', by simpa [hasKey] using mem_about.mp member'⟩ ⟨c, by simpa [hasKey] using mem_about.mp member⟩
  omega

theorem about_take_of_absent {x : X} {n : Nat} {whole whole' : List C} (onePart : InOnePart (hasKey key x) parts)
    (reads : Interleaving parts whole) (reads' : Interleaving (parts.take n) whole')
    (absent : ∀ part ∈ parts.drop n, about key x part = []) : about key x whole' = about key x whole := by
  have others : ((parts.drop n).map (about key x)).flatten = [] := by
    rw [List.flatten_eq_nil_iff]
    intro filtered member
    obtain ⟨part, inside, rfl⟩ := List.mem_map.mp member
    exact absent part inside
  rw [about_whole (inOnePart_take onePart n) reads', about_whole onePart reads]
  conv_rhs => rw [← List.take_append_drop n parts, List.map_append, List.flatten_append, others, List.append_nil]

end Parts

end Logs

/-! ## Tables made from logs -/

section Tables

variable {C X K V : Type} [DecidableEq X] [DecidableEq K] {key : C → X} {gone : C → Bool}
variable {update : C → Update K V} {keyOf : K → X}

/-- What a message says about an entry is said under the key of the entry, and a message that
    says that its key is gone removes the entry. -/
structure Keyed (key : C → X) (gone : C → Bool) (update : C → Update K V) (keyOf : K → X) (c : C) : Prop where
  own : ∀ k, (update c).about k ≠ none → key c = keyOf k
  removes : ∀ k, gone c = true → key c = keyOf k → (update c).about k = some none

/-- The last message of the key says nothing about an entry that is there. -/
def Outlives (key : C → X) (update : C → Update K V) (keyOf : K → X) (log : List C) (k : K) : Prop :=
  (∃ c, (about key (keyOf k) log).getLast? = some c ∧ (update c).about k = none) ∧
    (Table.applyAll ∅ (log.map update)).lookup k ≠ none

theorem lookup_about {log : List C} (keyed : ∀ c ∈ log, Keyed key gone update keyOf c) (k : K) :
    (Table.applyAll ∅ (log.map update)).lookup k =
      (((about key (keyOf k) log).filterMap fun c => (update c).about k).getLast?).getD none := by
  have others : ∀ c ∈ log, hasKey key (keyOf k) c = false → (update c).about k = none := by
    intro c member other
    by_contra speaks
    have own := (keyed c member).own k speaks
    simp [hasKey, own] at other
  rw [Table.lookup_applyAll, Table.filterMap_about_filter others, ← about, List.filterMap_map]
  rfl

omit [DecidableEq X] in
theorem keyed_reads {parts : List (List C)} (keyed : ∀ part ∈ parts, ∀ c ∈ part, Keyed key gone update keyOf c)
    {whole : List C} (reads : Interleaving parts whole) : ∀ c ∈ whole, Keyed key gone update keyOf c := by
  intro c member
  obtain ⟨part, isPart, inside⟩ := reads.exists_mem member
  exact keyed part isPart c inside

/-- A key that is gone has no entry. -/
theorem lookup_of_gone {log : List C} (keyed : ∀ c ∈ log, Keyed key gone update keyOf c) {k : K} {c : C}
    (isLast : (about key (keyOf k) log).getLast? = some c) (isGone : gone c = true) :
    (Table.applyAll ∅ (log.map update)).lookup k = none := by
  obtain ⟨member, isKey⟩ := mem_about.mp (List.mem_of_getLast? isLast)
  have removed := (keyed c member).removes k isGone isKey
  have split : about key (keyOf k) log = (about key (keyOf k) log).dropLast ++ [c] :=
    (List.dropLast_append_getLast? c isLast).symm
  rw [lookup_about keyed, split, List.filterMap_append]
  simp [removed]

/-- The log that is left tells the same of an entry, unless the entry outlives its last message. -/
theorem lookup_of_shortens {log kept : List C} (keyed : ∀ c ∈ log, Keyed key gone update keyOf c)
    (shortens : Shortens key gone log kept) {k : K} (settled : ¬ Outlives key update keyOf log k) :
    (Table.applyAll ∅ (kept.map update)).lookup k = (Table.applyAll ∅ (log.map update)).lookup k := by
  have keyed' : ∀ c ∈ kept, Keyed key gone update keyOf c := fun c member => keyed c (shortens.mem member)
  obtain ⟨earlier, split⟩ := shortens.suffix (keyOf k)
  cases spoken : (about key (keyOf k) kept).filterMap fun c => (update c).about k with
  | cons first more =>
    rw [lookup_about keyed', lookup_about keyed, ← split, List.filterMap_append, spoken,
      List.getLast?_append_of_ne_nil _ (List.cons_ne_nil _ _)]
  | nil =>
    have unsaid : (Table.applyAll ∅ (kept.map update)).lookup k = none := by
      rw [lookup_about keyed', spoken]
      rfl
    rw [unsaid]
    by_contra there
    cases isLast : (about key (keyOf k) log).getLast? with
    | none =>
      rw [List.getLast?_eq_none_iff] at isLast
      rw [lookup_about keyed, isLast] at there
      exact there rfl
    | some c =>
      by_cases empty : about key (keyOf k) kept = []
      · exact there (lookup_of_gone keyed isLast (shortens.last _ c empty isLast)).symm
      · refine settled ⟨⟨c, isLast, ?_⟩, Ne.symm there⟩
        rw [← split, List.getLast?_append_of_ne_nil _ empty] at isLast
        exact List.filterMap_eq_nil_iff.mp spoken c (List.mem_of_getLast? isLast)

/-- Exactly if no entry outlives its last message, every way of compacting the logs and reading
    them leaves the table that the logs themselves leave. -/
theorem replays_iff {parts : List (List C)} (onePart : ∀ x, InOnePart (hasKey key x) parts)
    (keyed : ∀ part ∈ parts, ∀ c ∈ part, Keyed key gone update keyOf c) {whole : List C}
    (reads : Interleaving parts whole) :
    (∀ kept whole', List.Forall₂ (Compacts key gone) parts kept → Interleaving kept whole' →
        Table.applyAll ∅ (whole'.map update) = Table.applyAll ∅ (whole.map update)) ↔
      ∀ k, ¬ Outlives key update keyOf whole k := by
  have keyedWhole := keyed_reads keyed reads
  constructor
  · rintro replays k ⟨⟨c, isLast, silent⟩, there⟩
    have reads' : Interleaving (parts.map (compact key gone)) (parts.map (compact key gone)).flatten :=
      @Interleaving.of_parts _ [] _ (by simp)
    obtain ⟨entry, found⟩ := Option.ne_none_iff_exists'.mp there
    rw [← replays _ _ (compacts_map_compact parts) reads'] at found
    -- The entry was put by a message that is left, which is the last one of its key.
    obtain ⟨i, put, -⟩ := exists_putBy_of_lookup found
    rw [List.getElem?_map, Option.map_eq_some_iff] at put
    obtain ⟨c', atI, puts⟩ := put
    obtain ⟨left, isLeft, inside⟩ := List.mem_flatten.mp (List.mem_of_getElem? atI)
    obtain ⟨part, isPart, rfl⟩ := List.mem_map.mp isLeft
    obtain ⟨j, position⟩ := List.mem_iff_getElem?.mp isPart
    have puts' : (update c').about k = some (some entry) := by rw [puts, Update.about, if_pos rfl]
    have own := (keyed part isPart c' ((compact_sublist part).subset inside)).own k (by simp [puts'])
    have isLast' := getLast?_of_mem_compact inside
    rw [own] at isLast'
    have here : about key (keyOf k) part ≠ [] := List.ne_nil_of_mem (List.mem_of_getLast? isLast')
    rw [about_whole_of_part (onePart _) reads position here, isLast', Option.some.injEq] at isLast
    rw [← isLast, puts'] at silent
    cases silent
  · intro settled kept whole' each reads'
    exact Finmap.ext_lookup fun k =>
      lookup_of_shortens keyedWhole (shortens_of_parts onePart each reads reads') (settled k)

section First

variable {parts : List (List C)} {n : Nat} {whole whole' : List C}

theorem lookup_take_of_unread (onePart : ∀ x, InOnePart (hasKey key x) parts)
    (keyed : ∀ part ∈ parts, ∀ c ∈ part, Keyed key gone update keyOf c)
    (reads' : Interleaving (parts.take n) whole') {k : K}
    (unread : ∃ part ∈ parts.drop n, about key (keyOf k) part ≠ []) :
    (Table.applyAll ∅ (whole'.map update)).lookup k = none := by
  obtain ⟨part, isPart, here⟩ := unread
  have keyedFirst := keyed_reads (fun part member => keyed part (List.mem_of_mem_take member)) reads'
  rw [lookup_about keyedFirst, about_take_eq_nil (onePart _) reads' isPart here]
  rfl

theorem lookup_take_of_read (onePart : ∀ x, InOnePart (hasKey key x) parts)
    (keyed : ∀ part ∈ parts, ∀ c ∈ part, Keyed key gone update keyOf c) (reads : Interleaving parts whole)
    (reads' : Interleaving (parts.take n) whole') {k : K}
    (read : ∀ part ∈ parts.drop n, about key (keyOf k) part = []) :
    (Table.applyAll ∅ (whole'.map update)).lookup k = (Table.applyAll ∅ (whole.map update)).lookup k := by
  have keyedFirst := keyed_reads (fun part member => keyed part (List.mem_of_mem_take member)) reads'
  rw [lookup_about keyedFirst, lookup_about (keyed_reads keyed reads),
    about_take_of_absent (onePart _) reads reads' read]

/-- Reading the first few logs leaves the table that all of them leave exactly if no key of the
    others has an entry there. -/
theorem take_replays_iff (onePart : ∀ x, InOnePart (hasKey key x) parts)
    (keyed : ∀ part ∈ parts, ∀ c ∈ part, Keyed key gone update keyOf c) (reads : Interleaving parts whole)
    (reads' : Interleaving (parts.take n) whole') :
    Table.applyAll ∅ (whole'.map update) = Table.applyAll ∅ (whole.map update) ↔
      ∀ k, (∃ part ∈ parts.drop n, about key (keyOf k) part ≠ []) →
        (Table.applyAll ∅ (whole.map update)).lookup k = none := by
  constructor
  · intro same k unread
    rw [← same]
    exact lookup_take_of_unread onePart keyed reads' unread
  · intro settled
    refine Finmap.ext_lookup fun k => ?_
    by_cases unread : ∃ part ∈ parts.drop n, about key (keyOf k) part ≠ []
    · rw [lookup_take_of_unread onePart keyed reads' unread, settled k unread]
    · refine lookup_take_of_read onePart keyed reads reads' fun part member => ?_
      by_contra here
      exact unread ⟨part, member, here⟩

end First

end Tables

end Compactions

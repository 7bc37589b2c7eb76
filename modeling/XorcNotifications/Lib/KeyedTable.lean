import Mathlib.Data.Finmap
import Mathlib.Data.Finset.Card

/-!
# Tables driven by keyed updates

A table of values under keys, changed by updates that each say something about at
most one key.  After any run the entry of a key is what the last update about that
key said, so an entry depends on nothing but the updates about its own key.
-/

namespace KeyedTables

variable {K V : Type} [DecidableEq K]

abbrev Table (K V : Type) := Finmap fun _ : K => V

/-- An update binds one key, removes one key, or does nothing. -/
inductive Update (K V : Type) where
  | skip
  | put (key : K) (value : V)
  | drop (key : K)

namespace Update

/-- What the update has to say about `x`: nothing, or its new entry. -/
def about (x : K) : Update K V → Option (Option V)
  | .skip => none
  | .put key value => if key = x then some (some value) else none
  | .drop key => if key = x then some none else none

def target : Update K V → Option K
  | .skip => none
  | .put key _ => some key
  | .drop key => some key

theorem about_eq_none {x : K} {update : Update K V} (other : update.target ≠ some x) :
    update.about x = none := by
  cases update <;> simp_all [about, target]

end Update

namespace Table

def apply (table : Table K V) : Update K V → Table K V
  | .skip => table
  | .put key value => table.insert key value
  | .drop key => table.erase key

def applyAll (table : Table K V) (updates : List (Update K V)) : Table K V :=
  updates.foldl apply table

def size (table : Table K V) : Nat := table.keys.card

theorem applyAll_concat (table : Table K V) (updates : List (Update K V)) (update : Update K V) :
    table.applyAll (updates ++ [update]) = (table.applyAll updates).apply update := by
  simp only [applyAll, List.foldl_append, List.foldl_cons, List.foldl_nil]

theorem lookup_apply (table : Table K V) (update : Update K V) (x : K) :
    (table.apply update).lookup x = (update.about x).getD (table.lookup x) := by
  cases update with
  | skip => rfl
  | put key value =>
    by_cases same : key = x
    · subst same
      simp [apply, Update.about]
    · simp [apply, Update.about, same, Finmap.lookup_insert_of_ne _ (Ne.symm same)]
  | drop key =>
    by_cases same : key = x
    · subst same
      simp [apply, Update.about]
    · simp [apply, Update.about, same, Finmap.lookup_erase_ne (Ne.symm same)]

theorem lookup_apply_of_ne {table : Table K V} {update : Update K V} {x : K}
    (other : update.target ≠ some x) : (table.apply update).lookup x = table.lookup x := by
  rw [lookup_apply, Update.about_eq_none other, Option.getD_none]

/-- The last update about a key decides its entry. -/
theorem lookup_applyAll (table : Table K V) (updates : List (Update K V)) (x : K) :
    (table.applyAll updates).lookup x =
      ((updates.filterMap (Update.about x)).getLast?).getD (table.lookup x) := by
  induction updates using List.reverseRecOn with
  | nil => rfl
  | append_singleton updates update inductionHypothesis =>
    rw [applyAll_concat, lookup_apply, inductionHypothesis, List.filterMap_append]
    cases said : update.about x <;> simp [said]

/-- Puts under distinct keys are all still there in the end. -/
theorem lookup_applyAll_puts {pairs : List (K × V)} (nodup : (pairs.map Prod.fst).Nodup) {x : K} {value : V} :
    (applyAll (∅ : Table K V) (pairs.map fun pair => .put pair.1 pair.2)).lookup x = some value ↔
      (x, value) ∈ pairs := by
  induction pairs using List.reverseRecOn with
  | nil => simp [applyAll]
  | append_singleton pairs pair inductionHypothesis =>
    rw [List.map_append, List.nodup_append] at nodup
    obtain ⟨earlier, -, distinct⟩ := nodup
    obtain ⟨key, last⟩ := pair
    rw [List.map_append, List.map_singleton, applyAll_concat, lookup_apply, Update.about, List.mem_append,
      List.mem_singleton, Prod.mk.injEq]
    by_cases same : key = x
    · subst same
      have fresh : (key, value) ∉ pairs := by
        intro member
        exact distinct key (List.mem_map.mpr ⟨_, member, rfl⟩) key List.mem_cons_self rfl
      rw [if_pos rfl, Option.getD_some, Option.some.injEq]
      simp [fresh, eq_comm]
    · rw [if_neg same, Option.getD_none, inductionHypothesis earlier]
      simp [Ne.symm same]

/-- A machine whose every step is one update of its table runs through all of them. -/
theorem table_foldl {S C : Type} {table : S → Table K V} {step : S → C → S} {update : C → Update K V}
    (simulates : ∀ s c, table (step s c) = (table s).apply (update c)) (commands : List C) (s : S) :
    table (commands.foldl step s) = (table s).applyAll (commands.map update) := by
  induction commands generalizing s with
  | nil => rfl
  | cons c commands inductionHypothesis =>
    rw [List.foldl_cons, inductionHypothesis, simulates]
    rfl

theorem lookup_applyAll_congr {table : Table K V} {updates updates' : List (Update K V)} {x : K}
    (agree : updates.filterMap (Update.about x) = updates'.filterMap (Update.about x)) :
    (table.applyAll updates).lookup x = (table.applyAll updates').lookup x := by
  rw [lookup_applyAll, lookup_applyAll, agree]

/-- When the updates are made from commands, of which some concern `x`, the last command
    that does so decides the entry of `x`. -/
theorem lookup_applyAll_map {C : Type} {update : C → Update K V} {concerns : C → Bool}
    {value : C → Option V} {x : K}
    (about : ∀ c, (update c).about x = if concerns c then some (value c) else none) (commands : List C) :
    (applyAll (∅ : Table K V) (commands.map update)).lookup x =
      ((commands.filter concerns).getLast?).bind value := by
  have filtered : (commands.map update).filterMap (Update.about x) =
      (commands.filter concerns).map value := by
    induction commands with
    | nil => rfl
    | cons c commands inductionHypothesis =>
      rw [List.map_cons, List.filterMap_cons, about c, inductionHypothesis, List.filter_cons]
      cases concerns c <;> simp
  rw [lookup_applyAll, filtered, List.getLast?_map, Finmap.lookup_empty]
  cases (commands.filter concerns).getLast? <;> rfl

theorem filterMap_about_filter {C : Type} {update : C → Update K V} {concerns : C → Bool} {x : K}
    {commands : List C}
    (other : ∀ c ∈ commands, concerns c = false → (update c).about x = none) :
    (commands.map update).filterMap (Update.about x) =
      ((commands.filter concerns).map update).filterMap (Update.about x) := by
  induction commands with
  | nil => rfl
  | cons c commands inductionHypothesis =>
    have rest := inductionHypothesis fun d member => other d (List.mem_cons_of_mem c member)
    rw [List.map_cons, List.filterMap_cons, rest, List.filter_cons]
    cases concerned : concerns c with
    | true => simp [List.filterMap_cons]
    | false => simp [other c List.mem_cons_self concerned]

theorem apply_drop_of_absent {table : Table K V} {key : K} (absent : table.lookup key = none) :
    table.apply (.drop key) = table := by
  refine Finmap.ext_lookup fun x => ?_
  rw [lookup_apply, Update.about]
  split
  next same => subst same; exact absent.symm
  next => rfl

theorem apply_drop_eq_self_iff {table : Table K V} {key : K} :
    table.apply (.drop key) = table ↔ table.lookup key = none := by
  constructor
  · intro same
    rw [← same, lookup_apply, Update.about, if_pos rfl, Option.getD_some]
  · exact apply_drop_of_absent

end Table

/-! ## Counting entries

What a write does to a count is decided by the entry it replaces and the entry it puts. -/

namespace Table

/-- How many entries have the property. -/
def count (p : V → Bool) (table : Table K V) : Nat :=
  (table.keys.filter fun key => (table.lookup key).any p).card

/-- What the entry of one key adds to a count. -/
def countOf (p : V → Bool) (entry : Option V) : Nat := if entry.any p then 1 else 0

theorem count_empty (p : V → Bool) : (∅ : Table K V).count p = 0 := by
  simp [count]

/-- A count is that of the other keys and what the entry of `key` adds. -/
theorem count_eq_others_add (p : V → Bool) (table : Table K V) (key : K) :
    table.count p =
      ((table.keys.erase key).filter fun other => (table.lookup other).any p).card +
        countOf p (table.lookup key) := by
  by_cases present : key ∈ table.keys
  · rw [count, ← Finset.insert_erase present, Finset.filter_insert, Finset.erase_insert_eq_erase,
      Finset.erase_idem, countOf]
    split
    · exact Finset.card_insert_of_notMem (by simp)
    · rfl
  · have absent : table.lookup key = none := by
      rw [Finmap.lookup_eq_none, ← Finmap.mem_keys]
      exact present
    rw [count, Finset.erase_eq_of_notMem present, absent]
    rfl

/-- Writes to `key` leave the count of the other keys as it was. -/
theorem others_congr (table table' : Table K V) (key : K)
    (keys : table'.keys.erase key = table.keys.erase key)
    (same : ∀ other, other ≠ key → table'.lookup other = table.lookup other) (p : V → Bool) :
    (table'.keys.erase key).filter (fun other => (table'.lookup other).any p) =
      (table.keys.erase key).filter fun other => (table.lookup other).any p := by
  rw [keys]
  refine Finset.filter_congr fun other member => ?_
  rw [same other (Finset.ne_of_mem_erase member)]

theorem keys_insert (table : Table K V) (key : K) (value : V) :
    Finmap.keys (table.insert key value) = insert key table.keys := by
  ext other
  rw [Finmap.mem_keys, Finmap.mem_insert, Finset.mem_insert, Finmap.mem_keys]

theorem count_insert (p : V → Bool) (table : Table K V) (key : K) (value : V) :
    count p (table.insert key value) + countOf p (table.lookup key) =
      table.count p + countOf p (some value) := by
  have others := others_congr table (table.insert key value) key
    (by rw [keys_insert, Finset.erase_insert_eq_erase])
    (fun other different => Finmap.lookup_insert_of_ne table different) p
  rw [count_eq_others_add p table key, count_eq_others_add p (table.insert key value) key, others,
    Finmap.lookup_insert]
  omega

theorem count_erase (p : V → Bool) (table : Table K V) (key : K) :
    count p (table.erase key) + countOf p (table.lookup key) = table.count p := by
  have others := others_congr table (table.erase key) key
    (by rw [Finmap.keys_erase, Finset.erase_idem])
    (fun other different => Finmap.lookup_erase_ne different) p
  rw [count_eq_others_add p table key, count_eq_others_add p (table.erase key) key, others,
    Finmap.lookup_erase]
  rfl

/-- Every entry has the property or its opposite. -/
theorem count_add_count_not (p : V → Bool) (table : Table K V) :
    table.count p + table.count (fun value => !p value) = table.size := by
  rw [size, count, count, ← Finset.card_filter_add_card_filter_not
    (s := table.keys) (fun key => (table.lookup key).any p = true)]
  congr 2
  refine Finset.filter_congr fun key member => ?_
  obtain ⟨value, found⟩ := Finmap.mem_iff.mp (Finmap.mem_keys.mp member)
  rw [found]
  simp

end Table

/-! ## Who put an entry

`PutBy updates x i` says that the entry `x` has at the end of the run is the one that
the update at position `i` put there. -/

def PutBy (updates : List (Update K V)) (x : K) (i : Nat) : Prop :=
  (∃ value, updates[i]? = some (.put x value)) ∧
    ∀ j, i < j → ∀ update, updates[j]? = some update → update.target ≠ some x

omit [DecidableEq K] in
/-- A later removal ends what an update has put. -/
theorem not_putBy_of_dropped {updates : List (Update K V)} {x : K} {i j : Nat} (later : i ≤ j)
    (dropped : updates[j]? = some (.drop x)) : ¬ PutBy updates x i := by
  intro putBy
  obtain ⟨⟨value, put⟩, untouched⟩ := putBy
  rcases Nat.eq_or_lt_of_le later with rfl | after
  · rw [dropped] at put
    cases put
  · exact untouched j after _ dropped rfl

/-- Every entry was put by an update of the run, with the value it has. -/
theorem exists_putBy_of_lookup {updates : List (Update K V)} {x : K} {value : V}
    (found : (Table.applyAll ∅ updates).lookup x = some value) :
    ∃ i, updates[i]? = some (.put x value) ∧ PutBy updates x i := by
  induction updates using List.reverseRecOn with
  | nil => cases found
  | append_singleton updates update inductionHypothesis =>
    rw [Table.applyAll_concat] at found
    -- The last update put the entry if it is about `x`, else it was there before.
    by_cases touched : update.target = some x
    · have put : update = .put x value := by
        rw [Table.lookup_apply] at found
        cases update with
        | skip => cases touched
        | put key other =>
          cases touched
          rw [Update.about, if_pos rfl, Option.getD_some, Option.some.injEq] at found
          rw [found]
        | drop key =>
          cases touched
          rw [Update.about, if_pos rfl, Option.getD_some] at found
          cases found
      subst put
      refine ⟨updates.length, List.getElem?_concat_length, ⟨value, List.getElem?_concat_length⟩, ?_⟩
      intro j after other position
      have bound := (List.getElem?_eq_some_iff.mp position).1
      rw [List.length_append, List.length_singleton] at bound
      omega
    · rw [Table.lookup_apply_of_ne touched] at found
      obtain ⟨i, position, _, untouched⟩ := inductionHypothesis found
      have bound := (List.getElem?_eq_some_iff.mp position).1
      have kept : (updates ++ [update])[i]? = some (.put x value) := by
        rw [List.getElem?_append_left bound, position]
      refine ⟨i, kept, ⟨value, kept⟩, fun j after other position' => ?_⟩
      rcases Nat.lt_or_ge j updates.length with inside | beyond
      · rw [List.getElem?_append_left inside] at position'
        exact untouched j after other position'
      · rw [List.getElem?_append_right beyond, List.getElem?_singleton] at position'
        split at position'
        · cases position'
          exact touched
        · cases position'

/-- The entry is the one that was put by the last update about the key. -/
theorem lookup_of_putBy {updates : List (Update K V)} {x : K} {i : Nat} {value : V}
    (put : updates[i]? = some (.put x value)) (putBy : PutBy updates x i) :
    (Table.applyAll ∅ updates).lookup x = some value := by
  induction updates using List.reverseRecOn with
  | nil => cases put
  | append_singleton updates update inductionHypothesis =>
    rw [Table.applyAll_concat]
    have bound := (List.getElem?_eq_some_iff.mp put).1
    rw [List.length_append, List.length_singleton] at bound
    rcases Nat.lt_succ_iff_lt_or_eq.mp bound with earlier | rfl
    · rw [List.getElem?_append_left earlier] at put
      have last := putBy.2 updates.length earlier update List.getElem?_concat_length
      rw [Table.lookup_apply_of_ne last]
      refine inductionHypothesis put ⟨⟨value, put⟩, fun j after other position => ?_⟩
      have inside := (List.getElem?_eq_some_iff.mp position).1
      exact putBy.2 j after other (by rw [List.getElem?_append_left inside, position])
    · rw [List.getElem?_concat_length, Option.some.injEq] at put
      rw [put, Table.lookup_apply, Update.about, if_pos rfl, Option.getD_some]

end KeyedTables

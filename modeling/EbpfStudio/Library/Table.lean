/-
This file adds to association lists what a mutable map of a program uses: keeping the entries that
pass a test, counting entries, updating one entry in place, and holding a list under every key.

Each operation comes with what it does to a lookup and to the size or sum. A sum over the entries
changes by what one entry changes by, and the records under all keys, in any order, change by what
one list exchanges (`perm_records_exchange`).
-/

import Mathlib

abbrev Table (Key Value : Type) := AList fun _ : Key => Value

namespace Table

open List Option

variable {Key Value : Type}

def size (table : Table Key Value) : Nat := table.entries.length

def toPairs (table : Table Key Value) : List (Key × Value) :=
  table.entries.map fun entry => (entry.1, entry.2)

def retain (keep : Key → Value → Bool) (table : Table Key Value) : Table Key Value where
  entries := table.entries.filter fun entry => keep entry.1 entry.2
  nodupKeys := table.nodupKeys.sublist List.filter_sublist

variable [DecidableEq Key]

def containsKey (table : Table Key Value) (key : Key) : Bool := (table.lookup key).isSome

def alter (table : Table Key Value) (key : Key) (start : Value) (change : Value → Value) :
    Table Key Value :=
  table.insert key (change ((table.lookup key).getD start))

def modify (table : Table Key Value) (key : Key) (change : Value → Value) : Table Key Value :=
  match table.lookup key with
  | some value => table.insert key (change value)
  | none => table

variable (table : Table Key Value) (key other : Key)

theorem lookup_insert_eq (value : Value) :
    (table.insert key value).lookup other =
      if other = key then some value else table.lookup other := by
  split
  · rename_i same
    subst same
    exact AList.lookup_insert table
  · exact AList.lookup_insert_ne ‹_›

theorem lookup_erase_eq :
    (table.erase key).lookup other = if other = key then none else table.lookup other := by
  split
  · rename_i same
    subst same
    exact AList.lookup_erase _ table
  · exact AList.lookup_erase_ne ‹_›

variable (keep : Key → Value → Bool)

theorem lookup_retain (table : Table Key Value) (key : Key) :
    (table.retain keep).lookup key = (table.lookup key).filter (keep key) := by
  refine ext fun value => ?_
  rw [← mem_def, ← mem_def, AList.mem_lookup_iff, mem_filter_iff,
    AList.mem_lookup_iff]
  exact mem_filter

theorem lookup_alter_eq (start : Value) (change : Value → Value) :
    (table.alter key start change).lookup other =
      if other = key then some (change ((table.lookup key).getD start))
      else table.lookup other :=
  lookup_insert_eq table key other _

theorem mem_toPairs {table : Table Key Value} {key : Key} {value : Value} :
    (key, value) ∈ table.toPairs ↔ table.lookup key = some value := by
  rw [← mem_def, AList.mem_lookup_iff]
  unfold toPairs
  simp only [List.mem_map, Prod.mk.injEq]
  constructor
  · rintro ⟨entry, member, rfl, rfl⟩
    exact member
  · intro member
    exact ⟨⟨key, value⟩, member, rfl, rfl⟩

omit [DecidableEq Key] in
theorem keys_toPairs_nodup : (table.toPairs.map (·.1)).Nodup := by
  have keys : table.toPairs.map (·.1) = table.entries.keys := by
    simp [toPairs, keys]
  rw [keys]
  exact table.nodupKeys

def values (table : Table Key Value) : List Value := table.toPairs.map (·.2)

def sum (measure : Value → Nat) (table : Table Key Value) : Nat :=
  (table.values.map measure).sum

omit [DecidableEq Key] in
theorem values_eq : table.values = table.entries.map fun entry =>
    entry.2 := by
  simp [values, toPairs]

omit [DecidableEq Key] in
theorem values_retain (keep : Value → Bool) (table : Table Key Value) :
    (table.retain fun _ value => keep value).values = table.values.filter keep := by
  rw [values_eq, values_eq, List.filter_map]
  rfl

theorem perm_values_erase (key : Key) :
    (values (table.erase key) ++ (table.lookup key).toList).Perm table.values := by
  rw [values_eq, values_eq]
  show ((kerase key table.entries).map (fun entry => entry.2) ++ _).Perm _
  by_cases known : key ∈ table.entries.keys
  · obtain ⟨old, before, after, fresh, split, erased⟩ := exists_of_kerase known
    have found : table.lookup key = some old := by
      rw [← mem_def, AList.mem_lookup_iff, split]
      exact (mem_append_right _ mem_cons_self)
    rw [erased, found, split, map_append, map_append, append_assoc]
    exact perm_append_comm.append_left _
  · have absent : table.lookup key = none := AList.lookup_eq_none.mpr known
    rw [kerase_of_notMem_keys known, absent, toList_none, append_nil]

theorem perm_values_insert (key : Key) (value : Value) :
    (values (table.insert key value) ++ (table.lookup key).toList).Perm
      (table.values ++ [value]) := by
  have inserted : values (table.insert key value) = value :: values (table.erase key) := by
    rw [values_eq, values_eq, AList.entries_insert]
    rfl
  rw [inserted]
  exact ((table.perm_values_erase key).cons value).trans (perm_append_singleton _ _).symm

variable (measure : Value → Nat) (table : Table Key Value)

theorem sum_insert (key : Key) (value : Value) :
    sum measure (table.insert key value) + (table.lookup key).elim 0 measure =
      table.sum measure + measure value := by
  have sums := ((table.perm_values_insert key value).map measure).sum_nat
  rw [map_append, sum_append, map_append, sum_append] at sums
  cases found : table.lookup key <;> simpa [sum, found] using sums

/-- No entry measures more than the whole table. -/
theorem elim_lookup_le_sum (key : Key) : (table.lookup key).elim 0 measure ≤ table.sum measure := by
  have sums := ((table.perm_values_erase key).map measure).sum_nat
  rw [map_append, sum_append] at sums
  cases found : table.lookup key with
  | none => exact Nat.zero_le _
  | some value =>
    rw [found, toList_some, map_singleton, sum_singleton] at sums
    exact (Nat.le_add_left _ _).trans sums.le

section

variable (key : Key) {start : Value} (empty : measure start = 0)

include empty

theorem measure_getD : measure ((table.lookup key).getD start) =
    (table.lookup key).elim 0 measure := by
  cases table.lookup key with
  | none => exact empty
  | some value => rfl

theorem sum_alter_of {change : Value → Value} {amount : Nat}
    (adds : measure (change ((table.lookup key).getD start)) =
      measure ((table.lookup key).getD start) + amount) :
    sum measure (table.alter key start change) = table.sum measure + amount := by
  have sums := table.sum_insert measure key (change ((table.lookup key).getD start))
  rw [adds, measure_getD measure table key empty] at sums
  show sum measure (table.insert key _) = _
  omega

theorem sum_alter {change : Value → Value} {amount : Nat}
    (adds : ∀ value, measure (change value) = measure value + amount) :
    sum measure (table.alter key start change) = table.sum measure + amount :=
  sum_alter_of measure table key empty (adds _)

end

omit [DecidableEq Key] in
theorem size_eq : table.size = table.values.length := by
  rw [size, values_eq, length_map]

theorem size_erase (key : Key) :
    size (table.erase key) + (table.lookup key).toList.length = table.size := by
  rw [size_eq, size_eq, ← length_append]
  exact (table.perm_values_erase key).length_eq

theorem size_insert_le (key : Key) (value : Value) :
    size (table.insert key value) ≤ table.size + 1 := by
  have lengths := (table.perm_values_insert key value).length_eq
  rw [length_append, length_append, length_singleton, ← size_eq, ← size_eq]
    at lengths
  omega

omit [DecidableEq Key] in
theorem size_retain_le (table : Table Key Value) :
    (table.retain keep).size ≤ table.size :=
  length_filter_le _ _

def ofEach {Input : Type} (keyOf : Input → Key) (inputs : List Input) : Table Key Input :=
  inputs.foldl (fun table input => table.insert (keyOf input) input) ∅

variable {Input : Type} {keyOf : Input → Key}

theorem lookup_ofEach {inputs : List Input} (unique : (inputs.map keyOf).Nodup) {input : Input}
    (member : input ∈ inputs) :
    (ofEach keyOf inputs).lookup (keyOf input) = some input := by
  induction inputs using reverseRecOn with
  | nil => cases member
  | append_singleton earlier last hypothesis =>
    unfold ofEach
    rw [foldl_append, foldl_cons, foldl_nil, lookup_insert_eq]
    rw [map_append, nodup_append] at unique
    rcases mem_append.mp member with before | same
    · have other : keyOf input ≠ keyOf last :=
        unique.2.2 _ (mem_map_of_mem before) _ mem_cons_self
      rw [if_neg other]
      exact hypothesis unique.1 before
    · rw [mem_singleton.mp same, if_pos rfl]

theorem isSome_lookup_ofEach {inputs : List Input} {input : Input} (member : input ∈ inputs) :
    ((ofEach keyOf inputs).lookup (keyOf input)).isSome = true := by
  unfold ofEach
  induction inputs using reverseRecOn with
  | nil => cases member
  | append_singleton rest last hypothesis =>
    rw [foldl_append, foldl_cons, foldl_nil, lookup_insert_eq]
    split
    · rfl
    · rename_i other
      rcases mem_append.mp member with before | same
      · exact hypothesis before
      · exact absurd (congrArg keyOf (mem_singleton.mp same)) other

def alterEach {Input : Type} (keyOf : Input → Key) (start : Key → Value)
    (change : Input → Value → Value) (table : Table Key Value) (inputs : List Input) :
    Table Key Value :=
  inputs.foldl (fun table input => table.alter (keyOf input) (start (keyOf input)) (change input))
    table

theorem getD_lookup_alterEach (keyOf : Input → Key) (start : Key → Value)
    (change : Input → Value → Value) (table : Table Key Value) (inputs : List Input) (key : Key) :
    ((table.alterEach keyOf start change inputs).lookup key).getD (start key) =
      (inputs.filter fun input => keyOf input = key).foldl (fun value input => change input value)
        ((table.lookup key).getD (start key)) := by
  induction inputs generalizing table with
  | nil => rfl
  | cons input rest hypothesis =>
    have later := hypothesis (table.alter (keyOf input) (start (keyOf input))
      (change input))
    unfold alterEach at later ⊢
    rw [foldl_cons, later, lookup_alter_eq, filter_cons]
    by_cases same : keyOf input = key
    · subst same
      rw [if_pos rfl, if_pos (decide_eq_true rfl)]
      rfl
    · rw [if_neg fun equal => same equal.symm, if_neg (by simp [same])]

theorem sum_alterEach {start : Key → Value} {change : Input → Value → Value}
    (amount : Input → Nat) (empty : ∀ key, measure (start key) = 0)
    (adds : ∀ input value, measure (change input value) = measure value + amount input)
    (table : Table Key Value) (inputs : List Input) :
    (table.alterEach keyOf start change inputs).sum measure =
      table.sum measure + (inputs.map amount).sum := by
  induction inputs generalizing table with
  | nil => rfl
  | cons input rest hypothesis =>
    rw [map_cons, sum_cons, ← Nat.add_assoc, ← sum_alter measure table (keyOf input)
      (empty (keyOf input)) (adds input)]
    exact hypothesis _

theorem foldl_count (read : Value → Nat) (write : Value → Nat → Value)
    (write_write : ∀ value first second, write (write value first) second = write value second)
    (read_write : ∀ value count, read (write value count) = count)
    (write_read : ∀ value, write value (read value) = value) (inputs : List Input) (value : Value) :
    inputs.foldl (fun value _ => write value (read value + 1)) value =
      write value (read value + inputs.length) := by
  induction inputs generalizing value with
  | nil => exact (write_read value).symm
  | cons input rest hypothesis =>
    rw [foldl_cons, hypothesis, read_write, write_write, length_cons,
      Nat.add_assoc, Nat.add_comm 1]

def orderedValues (le : Key → Key → Prop) [DecidableRel le] (table : Table Key Value) :
    List Value :=
  (table.toPairs.insertionSort fun first second => le first.1 second.1).map (·.2)

omit [DecidableEq Key] in
theorem perm_orderedValues (le : Key → Key → Prop) [DecidableRel le] (table : Table Key Value) :
    (table.orderedValues le).Perm (table.toPairs.map (·.2)) :=
  (perm_insertionSort _ _).map _

def records {Record : Type} (table : Table Key (List Record)) : List Record :=
  (table.toPairs.map (·.2)).flatten

def listAt {Record : Type} (table : Table Key (List Record)) (key : Key) : List Record :=
  (table.lookup key).getD []

variable {Record : Type}

theorem listAt_insert (table : Table Key (List Record)) (key other : Key) (values : List Record) :
    listAt (table.insert key values) other =
      if other = key then values else table.listAt other := by
  unfold listAt
  rw [lookup_insert_eq]
  split <;> rfl

omit [DecidableEq Key] in
@[simp] theorem records_empty :
    (∅ : Table Key (List Record)).records = [] := rfl

theorem perm_records_insert (table : Table Key (List Record)) (key : Key) (values : List Record) :
    (records (table.insert key values) ++ table.listAt key).Perm (table.records ++ values) := by
  have flattened := (table.perm_values_insert key values).flatten
  rw [flatten_append, flatten_append, flatten_singleton] at flattened
  have found : (table.lookup key).toList.flatten = table.listAt key := by
    unfold listAt
    cases table.lookup key <;> simp
  rwa [found] at flattened

/-- What leaves the list of a key for what joins it leaves the table for it. Only what a view of
the records shows is compared. -/
theorem perm_records_exchange {Record View : Type} (view : Record → View)
    (table : Table Key (List Record)) (key : Key) {values : List Record} {gone new : List View}
    (exchange : (values.map view ++ gone).Perm ((table.listAt key).map view ++ new)) :
    ((records (table.insert key values)).map view ++ gone).Perm
      (table.records.map view ++ new) := by
  classical
  have replaced := perm_iff_count.mp ((table.perm_records_insert key values).map view)
  rw [perm_iff_count] at exchange ⊢
  intro item
  have inOwn := exchange item
  have inAll := replaced item
  simp only [map_append, count_append] at inOwn inAll ⊢
  omega

end Table

/-- The order in which a hash map yields its entries: some rearrangement of them, on which a
program may not rely. -/
structure IterationOrder where
  visit : {Entry : Type} → List Entry → List Entry
  perm : ∀ {Entry : Type} (entries : List Entry), (visit entries).Perm entries

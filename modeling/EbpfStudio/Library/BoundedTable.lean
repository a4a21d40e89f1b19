/-
This file models a map with a fixed number of places.

Storing under a key that is present replaces its value. Storing under a new key fails if all places
are taken. The places used are the keys, and the set of keys says whether a list of insertions
succeeds: exactly if the keys that are stored together fit.
-/

import EbpfStudio.Library.Table

namespace Table

open List Table Finset

variable {Key Value : Type} [DecidableEq Key]

def keySet (table : Table Key Value) : Finset Key := table.entries.keys.toFinset

variable (table : Table Key Value)

omit [DecidableEq Key] in
theorem size_eq_length_keys :
    table.size = table.entries.keys.length := by
  unfold size keys
  rw [length_map]

theorem card_keySet : table.keySet.card = table.size := by
  unfold keySet
  rw [toFinset_card_of_nodup table.nodupKeys, size_eq_length_keys]

theorem mem_keySet {table : Table Key Value} {key : Key} :
    key ∈ table.keySet ↔ table.containsKey key = true := by
  unfold keySet containsKey
  rw [mem_toFinset, AList.lookup_isSome]
  rfl

theorem keySet_insert (key : Key) (value : Value) :
    keySet (table.insert key value) = insert key table.keySet := by
  refine ext fun other => ?_
  rw [mem_insert, mem_keySet, mem_keySet]
  unfold containsKey
  rw [lookup_insert_eq]
  split
  · rename_i same
    simp [same]
  · rename_i different
    simp [different]

end Table

structure BoundedTable (capacity : Nat) (Key Value : Type) where
  table : Table Key Value
  bounded : table.size ≤ capacity

namespace BoundedTable

variable {capacity : Nat} {Key Value : Type}

def empty : BoundedTable capacity Key Value := ⟨∅, Nat.zero_le capacity⟩

variable [DecidableEq Key]

def lookup (map : BoundedTable capacity Key Value) (key : Key) : Option Value :=
  map.table.lookup key

def contains (map : BoundedTable capacity Key Value) (key : Key) : Bool :=
  map.table.containsKey key

def accepts (map : BoundedTable capacity Key Value) (key : Key) : Bool :=
  map.contains key || decide (map.table.size < capacity)

variable (map : BoundedTable capacity Key Value)

theorem accepts_iff (key : Key) :
    map.accepts key = true ↔ (insert key map.table.keySet).card ≤ capacity := by
  unfold accepts contains
  rw [Bool.or_eq_true, decide_eq_true_eq, ← Table.mem_keySet]
  by_cases known : key ∈ map.table.keySet
  · rw [Finset.insert_eq_of_mem known, Table.card_keySet]
    exact ⟨fun _ => map.bounded, fun _ => Or.inl known⟩
  · rw [Finset.card_insert_of_notMem known, Table.card_keySet]
    exact ⟨fun either => either.resolve_left known, Or.inr⟩

def insert (map : BoundedTable capacity Key Value) (key : Key) (value : Value) :
    Option (BoundedTable capacity Key Value) :=
  if accepted : map.accepts key = true then
    some ⟨map.table.insert key value, by
      rw [← Table.card_keySet, Table.keySet_insert]
      exact (map.accepts_iff key).mp accepted⟩
  else none

def erase (map : BoundedTable capacity Key Value) (key : Key) :
    BoundedTable capacity Key Value where
  table := map.table.erase key
  bounded := (List.kerase_sublist key map.table.entries).length_le.trans map.bounded

theorem insert_eq_some {map next : BoundedTable capacity Key Value} {key : Key} {value : Value} :
    map.insert key value = some next ↔
      map.accepts key = true ∧ next.table = map.table.insert key value := by
  unfold insert
  split
  · rename_i accepted
    refine ⟨fun same => ⟨accepted, ?_⟩, fun both => ?_⟩
    · rw [← Option.some.inj same]
    · obtain ⟨table, bounded⟩ := next
      cases both.2
      rfl
  · rename_i refused
    exact ⟨fun same => (by cases same), fun both => absurd both.1 refused⟩

section

variable {map : BoundedTable capacity Key Value} {key : Key} {value : Value}
  (refused : map.insert key value = none)

include refused

theorem not_fits_of_insert_eq_none : ¬ (Insert.insert key map.table.keySet).card ≤ capacity := by
  intro fits
  unfold insert at refused
  rw [dif_pos ((map.accepts_iff key).mpr fits)] at refused
  cases refused

theorem lookup_of_insert_eq_none : map.lookup key = none := by
  have absent : ¬ map.accepts key = true := by
    intro accepted
    unfold insert at refused
    rw [dif_pos accepted] at refused
    cases refused
  unfold accepts contains Table.containsKey at absent
  rw [Bool.or_eq_true, not_or] at absent
  exact Option.not_isSome_iff_eq_none.mp absent.1

end

section

variable {map next : BoundedTable capacity Key Value} {key : Key} {value : Value}
  (stored : map.insert key value = some next) (other : Key)

include stored

theorem lookup_of_insert :
    next.lookup other = if other = key then some value else map.lookup other := by
  unfold lookup
  rw [(insert_eq_some.mp stored).2]
  exact Table.lookup_insert_eq map.table key other value

theorem contains_of_insert :
    next.contains other = (decide (other = key) || map.contains other) := by
  have found := lookup_of_insert stored other
  unfold lookup at found
  unfold contains Table.containsKey
  rw [found]
  by_cases same : other = key <;> simp [same]

end

theorem lookup_erase (key other : Key) :
    (map.erase key).lookup other = if other = key then none else map.lookup other :=
  Table.lookup_erase_eq map.table key other

end BoundedTable

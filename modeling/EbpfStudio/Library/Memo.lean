/-
This file is about tables that remember results.

A table of bounded size is cleared when it is full and a new result is to be remembered. A table is
sound if every result in it is right for its key. Remembering a right result keeps a table sound,
also if it is cleared first. What is right may change to something weaker.
-/

import EbpfStudio.Library.Table

namespace Memo

variable {Key Value : Type} [DecidableEq Key]

def remember (limit : Nat) (table : Table Key Value) (key : Key) (value : Value) :
    Table Key Value :=
  (if limit ≤ table.size then ∅ else table).insert key value

def Sound (right : Key → Value → Prop) (table : Table Key Value) : Prop :=
  ∀ key value, table.lookup key = some value → right key value

variable {right : Key → Value → Prop}

theorem Sound.empty : Sound right (∅ : Table Key Value) :=
  fun _ _ found => nomatch found

variable {table : Table Key Value}

theorem Sound.insert (sound : Sound right table) {key : Key} {value : Value}
    (holds : right key value) :
    Sound right (table.insert key value) := by
  intro other found known
  rw [Table.lookup_insert_eq] at known
  split at known
  · rename_i same
    rw [same, ← Option.some.inj known]
    exact holds
  · exact sound other found known

theorem Sound.remember (sound : Sound right table) (limit : Nat) {key : Key} {value : Value}
    (holds : right key value) : Sound right (remember limit table key value) := by
  unfold Memo.remember
  split
  · exact Sound.empty.insert holds
  · exact sound.insert holds

theorem Sound.mono {right other : Key → Value → Prop} (sound : Sound right table)
    (implies : ∀ key value, right key value → other key value) :
    Sound other table :=
  fun key value found => implies key value (sound key value found)

end Memo

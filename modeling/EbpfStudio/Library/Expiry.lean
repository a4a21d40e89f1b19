/-
This file is about queues from whose front old entries are dropped.

The old entries of a list are in front if the list is sorted by age (`OldFirst`), and then dropping
from the front drops them all. The other operations push within a bound, change the last entry that
passes a test, and keep the first entry of each key.
-/

import Mathlib

namespace Expiry

open List Option

variable {Entry Key : Type}

def OldFirst (old : Entry → Bool) (entries : List Entry) : Prop :=
  entries.Pairwise fun first second => old second = true → old first = true

variable {entries : List Entry}

theorem OldFirst.not_old {old : Entry → Bool} (first : OldFirst old entries) {entry : Entry}
    (left : entry ∈ entries.dropWhile old) : old entry = false := by
  induction entries with
  | nil => cases left
  | cons head rest hypothesis =>
    obtain ⟨before, others⟩ := pairwise_cons.mp first
    rw [dropWhile_cons] at left
    split at left
    · exact hypothesis others left
    · rename_i young
      rcases mem_cons.mp left with rfl | later
      · exact Bool.eq_false_iff.mpr young
      · exact Bool.eq_false_iff.mpr fun isOld => young (before entry later isOld)

def pushBounded (room : Nat) (entries : List Entry) (entry : Entry) : List Entry :=
  (if entries.length = room then entries.tail else entries) ++ [entry]

theorem length_pushBounded_le {room : Nat} (some_ : 0 < room) (few : entries.length ≤ room)
    (entry : Entry) :
    (pushBounded room entries entry).length ≤ room := by
  unfold pushBounded
  rw [length_append, length_singleton]
  split
  · rw [length_tail]
    omega
  · omega

theorem pushBounded_sublist (room : Nat) (entries : List Entry) (entry : Entry) :
    (pushBounded room entries entry).Sublist (entries ++ [entry]) := by
  unfold pushBounded
  split
  · exact (tail_sublist _).append_right _
  · exact List.Sublist.refl _

theorem foldl_pushBounded_sublist (room : Nat) (entries more : List Entry) :
    (more.foldl (pushBounded room) entries).Sublist (entries ++ more) := by
  induction more generalizing entries with
  | nil => simp
  | cons entry rest hypothesis =>
    rw [foldl_cons, append_cons]
    exact (hypothesis _).trans ((pushBounded_sublist room entries entry).append_right _)

theorem length_foldl_pushBounded_le {room : Nat} (some_ : 0 < room) (few : entries.length ≤ room)
    (more : List Entry) :
    (more.foldl (pushBounded room) entries).length ≤ room := by
  induction more generalizing entries with
  | nil => exact few
  | cons entry rest hypothesis =>
    exact hypothesis (length_pushBounded_le some_ few entry)

def modifyLast? (matching : Entry → Bool) (change : Entry → Entry) :
    List Entry → Option (List Entry)
  | [] => none
  | entry :: rest =>
    match modifyLast? matching change rest with
    | some changed => some (entry :: changed)
    | none => if matching entry then some (change entry :: rest) else none

variable {matching : Entry → Bool} {change : Entry → Entry}

theorem modifyLast?_eq_none (missing : modifyLast? matching change entries = none) :
    ∀ entry ∈ entries, matching entry = false := by
  induction entries with
  | nil =>
    intro entry member
    cases member
  | cons head rest hypothesis =>
    unfold modifyLast? at missing
    cases inRest : modifyLast? matching change rest with
    | some changed =>
      rw [inRest] at missing
      cases missing
    | none =>
      rw [inRest, ite_eq_right_iff] at missing
      intro entry member
      rcases mem_cons.mp member with rfl | later
      · exact Bool.eq_false_iff.mpr fun matches_ => some_ne_none _ (missing matches_)
      · exact hypothesis inRest entry later

theorem modifyLast?_eq_some {entries changed : List Entry}
    (found : modifyLast? matching change entries = some changed) :
    ∃ before entry after, entries = before ++ entry :: after ∧ matching entry = true ∧
      (∀ later ∈ after, matching later = false) ∧ changed = before ++ change entry :: after := by
  induction entries generalizing changed with
  | nil => cases found
  | cons head rest hypothesis =>
    unfold modifyLast? at found
    cases inRest : modifyLast? matching change rest with
    | some changedRest =>
      rw [inRest, some.injEq] at found
      obtain ⟨before, entry, after, rfl, matches_, none_, rfl⟩ := hypothesis inRest
      exact ⟨head :: before, entry, after, rfl, matches_, none_, found.symm⟩
    | none =>
      rw [inRest, ite_none_right_eq_some, some.injEq] at found
      exact ⟨[], head, rest, rfl, found.1, modifyLast?_eq_none inRest, found.2.symm⟩

def retainFirst [DecidableEq Key] (key : Entry → Key) (seen : List Key) : List Entry → List Entry
  | [] => []
  | entry :: rest =>
    if key entry ∈ seen then retainFirst key seen rest
    else entry :: retainFirst key (key entry :: seen) rest

theorem retainFirst_sublist [DecidableEq Key] (key : Entry → Key) (seen : List Key)
    (entries : List Entry) : (retainFirst key seen entries).Sublist entries := by
  induction entries generalizing seen with
  | nil => exact List.Sublist.refl _
  | cons entry rest hypothesis =>
    unfold retainFirst
    split
    · exact (hypothesis seen).cons _
    · exact (hypothesis _).cons_cons _

end Expiry

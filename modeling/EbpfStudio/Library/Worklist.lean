/-
This file is the loop that takes items from the front of a queue until the queue is empty.

A turn may stop the loop or queue more items. Items that are still to be queued are paid for by a
potential, which gives enough fuel (`drain_spec`). `Explores` is the invariant of a search that
marks items: what it has marked in the end is what the start reaches.
-/

import Mathlib

namespace Worklist

open List

variable {Item State Result : Type}

def drain (visit : State → Item → Except Result (State × List Item)) :
    Nat → List Item → State → Except Result State
  | 0, _, state => .ok state
  | _ + 1, [], state => .ok state
  | fuel + 1, item :: queue, state =>
    match visit state item with
    | .error result => .error result
    | .ok (next, appended) => drain visit fuel (queue ++ appended) next

/-- What is known of a loop's outcome: one property of an early result, one of a final
state. -/
def Outcome {Value : Type} (early : Result → Prop) (final : Value → Prop) :
    Except Result Value → Prop
  | .error result => early result
  | .ok value => final value

@[simp] theorem outcome_ok {Value : Type} (early : Result → Prop) (final : Value → Prop)
    (value : Value) : Outcome early final (.ok value) = final value := rfl

variable {visit : State → Item → Except Result (State × List Item)} {early : Result → Prop}

theorem drain_spec_counted {invariant : Nat → State → List Item → Prop}
    (exhausted : ∀ state queue, invariant 0 state queue → queue = [])
    (preserved : ∀ turns state item queue, invariant (turns + 1) state (item :: queue) →
      Outcome early (fun next => invariant turns next.1 (queue ++ next.2)) (visit state item))
    (fuel : Nat) (queue : List Item) (state : State) (holds : invariant fuel state queue) :
    Outcome early (fun final => ∃ turns, invariant turns final [])
      (drain visit fuel queue state) := by
  induction fuel generalizing queue state with
  | zero =>
    have empty := exhausted state queue holds
    subst empty
    exact ⟨0, holds⟩
  | succ fuel hypothesis =>
    cases queue with
    | nil => exact ⟨fuel + 1, holds⟩
    | cons item queue =>
      have visited := preserved fuel state item queue holds
      rw [drain]
      cases outcome : visit state item with
      | error result =>
        rw [outcome] at visited
        exact visited
      | ok next =>
        rw [outcome] at visited
        exact hypothesis _ _ visited

theorem Outcome.mono {Value : Type} {final weaker : Value → Prop}
    (implied : ∀ value, final value → weaker value) {outcome : Except Result Value}
    (known : Outcome early final outcome) : Outcome early weaker outcome := by
  cases outcome with
  | error result => exact known
  | ok value => exact implied value known

variable {invariant : State → List Item → Prop}

/-- The loop keeps its invariant and empties its queue, given fuel for the queue and for every
item the potential can still pay for. -/
theorem drain_spec (potential : State → Nat)
    (preserved : ∀ state item queue, invariant state (item :: queue) →
      Outcome early (fun next => invariant next.1 (queue ++ next.2) ∧
      potential next.1 + next.2.length ≤ potential state) (visit state item))
    (fuel : Nat) (queue : List Item) (state : State)
    (enough : queue.length + potential state ≤ fuel) (holds : invariant state queue) :
    Outcome early (fun final => invariant final []) (drain visit fuel queue state) := by
  let counted (turns : Nat) (state : State) (queue : List Item) : Prop :=
    queue.length + potential state ≤ turns ∧ invariant state queue
  have exhausted : ∀ state queue, counted 0 state queue → queue = [] := by
    rintro state queue ⟨enough, -⟩
    exact eq_nil_of_length_eq_zero (by omega)
  have step : ∀ turns state item queue, counted (turns + 1) state (item :: queue) →
      Outcome early (fun next => counted turns next.1 (queue ++ next.2)) (visit state item) := by
    rintro turns state item queue ⟨enough, holds⟩
    refine (preserved state item queue holds).mono ?_
    rintro next ⟨kept, paid⟩
    refine ⟨?_, kept⟩
    rw [length_cons] at enough
    rw [length_append]
    omega
  refine (drain_spec_counted exhausted step fuel queue state ⟨enough, holds⟩).mono ?_
  rintro final ⟨turns, -, kept⟩
  exact kept

def drainAll (visit : State → Item → State × List Item) (fuel : Nat) (queue : List Item)
    (state : State) : State :=
  match drain (fun state item => (.ok (visit state item) : Except Empty _)) fuel queue state with
  | .error impossible => nomatch impossible
  | .ok final => final

section

variable {visit : State → Item → State × List Item}

theorem drainAll_of_outcome {fuel : Nat} {queue : List Item} {state : State}
    {final : State → Prop}
    (known : Outcome (fun _ => False) final
      (drain (fun state item => (.ok (visit state item) : Except Empty _)) fuel queue state)) :
    final (drainAll visit fuel queue state) := by
  unfold drainAll
  revert known
  cases drain (fun state item => (.ok (visit state item) : Except Empty _)) fuel queue state with
  | error impossible => exact nomatch impossible
  | ok value => exact id

theorem drainAll_spec_counted {invariant : Nat → State → List Item → Prop}
    (exhausted : ∀ state queue, invariant 0 state queue → queue = [])
    (preserved : ∀ turns state item queue, invariant (turns + 1) state (item :: queue) →
      invariant turns (visit state item).1 (queue ++ (visit state item).2)) (fuel : Nat)
    (queue : List Item) (state : State) (holds : invariant fuel state queue) :
    ∃ turns, invariant turns (drainAll visit fuel queue state) [] := by
  have step : ∀ turns state item queue, invariant (turns + 1) state (item :: queue) →
      Outcome (fun _ : Empty => False) (fun next => invariant turns next.1 (queue ++ next.2))
        (.ok (visit state item)) := preserved
  exact drainAll_of_outcome (drain_spec_counted exhausted step fuel queue state holds)

end

def turn (visit : State → Item → State × List Item) : State × List Item → State × List Item
  | (state, []) => (state, [])
  | (state, item :: queue) => ((visit state item).1, queue ++ (visit state item).2)

variable (visit : State → Item → State × List Item)

theorem iterate_turn_nil (turns : Nat) (state : State) :
    (turn visit)^[turns] (state, []) = (state, []) :=
  Function.iterate_fixed rfl turns

theorem drainAll_eq_iterate (fuel : Nat) (queue : List Item) (state : State) :
    drainAll visit fuel queue state = ((turn visit)^[fuel] (state, queue)).1 := by
  induction fuel generalizing queue state with
  | zero => rfl
  | succ fuel hypothesis =>
    cases queue with
    | nil =>
      rw [iterate_turn_nil]
      rfl
    | cons item queue =>
      rw [Function.iterate_succ_apply]
      exact hypothesis _ _

section

variable {visit : State → Item → State × List Item} (potential : State → Nat)
  (preserved : ∀ state item queue, invariant state (item :: queue) →
    invariant (visit state item).1 (queue ++ (visit state item).2) ∧
      potential (visit state item).1 + (visit state item).2.length ≤ potential state)
  (fuel : Nat) (queue : List Item) (state : State)
  (enough : queue.length + potential state ≤ fuel) (holds : invariant state queue)

include preserved enough holds

theorem drainAll_spec : invariant (drainAll visit fuel queue state) [] := by
  have step : ∀ state item queue, invariant state (item :: queue) →
      Outcome (fun _ : Empty => False) (fun next => invariant next.1 (queue ++ next.2) ∧
        potential next.1 + next.2.length ≤ potential state) (.ok (visit state item)) := preserved
  exact drainAll_of_outcome (drain_spec potential step fuel queue state enough holds)

theorem iterate_turn_drained : ((turn visit)^[fuel] (state, queue)).2 = [] := by
  induction fuel generalizing queue state with
  | zero =>
    show queue = []
    exact length_eq_zero_iff.mp (by omega)
  | succ fuel hypothesis =>
    cases queue with
    | nil => rw [iterate_turn_nil]
    | cons item queue =>
      obtain ⟨next, paid⟩ := preserved state item queue holds
      rw [Function.iterate_succ_apply]
      refine hypothesis _ _ ?_ next
      rw [length_cons] at enough
      rw [length_append]
      omega

end

theorem countP_unmarked_mark [BEq Item] [LawfulBEq Item] (items : List Item) {marked : List Item}
    {item : Item} (fresh : item ∉ marked) :
    (items.countP fun other => other ∉ item :: marked) + items.count item =
      items.countP fun other => other ∉ marked := by
  induction items with
  | nil => rfl
  | cons head rest hypothesis =>
    rw [countP_cons, countP_cons, count_cons]
    by_cases same : head = item
    · rw [if_neg (by simp [same]), if_pos (by simp [same]), if_pos (by simp [same, fresh])]
      omega
    · rw [if_neg (by simp [same] : ¬ (head == item) = true)]
      by_cases old : head ∈ marked
      · rw [if_neg (by simp [old]), if_neg (by simp [old])]
        exact hypothesis
      · rw [if_pos (by simp [same, old]), if_pos (by simp [old])]
        omega

/-- The search has marked or queued everything one step from a marked item, and only items the
start reaches. -/
structure Explores (step : Item → Item → Prop) (start : Item) (seen queue : List Item) : Prop where
  reached : ∀ item, item ∈ seen ∨ item ∈ queue → Relation.ReflTransGen step start item
  started : start ∈ seen ∨ start ∈ queue
  closed : ∀ item ∈ seen, ∀ next, step item next → next ∈ seen ∨ next ∈ queue

section Search

variable {step : Item → Item → Prop} {start item : Item} {seen queue : List Item}

theorem explores_start : Explores step start [] [start] where
  reached item known := by
    rcases known with absent | queued
    · cases absent
    · rw [mem_singleton.mp queued]
  started := .inr mem_cons_self
  closed item member := by cases member

theorem mem_or_mem_of_cons {other : Item} (marked : item ∈ seen)
    (known : other ∈ seen ∨ other ∈ item :: queue) : other ∈ seen ∨ other ∈ queue := by
  rcases known with old | queued
  · exact .inl old
  · rcases mem_cons.mp queued with rfl | later
    · exact .inl marked
    · exact .inr later

theorem Explores.skip (explores : Explores step start seen (item :: queue))
    (marked : item ∈ seen) : Explores step start seen queue where
  reached other known := explores.reached other (known.imp_right (mem_cons_of_mem _))
  started := mem_or_mem_of_cons marked explores.started
  closed first member second linked :=
    mem_or_mem_of_cons marked (explores.closed first member second linked)

theorem Explores.mark (explores : Explores step start seen (item :: queue))
    {appended : List Item} (listed : ∀ next, next ∈ appended ↔ step item next) :
    Explores step start (item :: seen) (queue ++ appended) := by
  have here := explores.reached item (.inr mem_cons_self)
  have kept : ∀ other, other ∈ seen ∨ other ∈ item :: queue →
      other ∈ item :: seen ∨ other ∈ queue ++ appended := fun other known =>
    (mem_or_mem_of_cons mem_cons_self (known.imp_left (mem_cons_of_mem _))).imp_right
      (mem_append_left _)
  refine ⟨fun other known => ?_, kept _ explores.started, fun first member second linked => ?_⟩
  · rcases known with marked | queued
    · rcases mem_cons.mp marked with rfl | old
      · exact here
      · exact explores.reached other (.inl old)
    · rcases mem_append.mp queued with later | fresh
      · exact explores.reached other (.inr (mem_cons_of_mem _ later))
      · exact here.tail ((listed other).mp fresh)
  · rcases mem_cons.mp member with rfl | old
    · exact .inr (mem_append_right _ ((listed second).mpr linked))
    · exact kept second (explores.closed first old second linked)

theorem Explores.mem_iff (explores : Explores step start seen []) :
    item ∈ seen ↔ Relation.ReflTransGen step start item := by
  refine ⟨fun marked => explores.reached item (.inl marked), fun walk => ?_⟩
  induction walk with
  | refl => exact explores.started.resolve_right not_mem_nil
  | tail _ linked hypothesis =>
    exact (explores.closed _ hypothesis _ linked).resolve_right not_mem_nil

end Search

variable [DecidableEq Item]

def discover (seen : List Item) : List Item → List Item × List Item
  | [] => (seen, [])
  | item :: items =>
    if item ∈ seen then discover seen items
    else ((discover (item :: seen) items).1, item :: (discover (item :: seen) items).2)

variable (seen items : List Item)

theorem mem_discover_marked (item : Item) :
    item ∈ (discover seen items).1 ↔ item ∈ seen ∨ item ∈ items := by
  induction items generalizing seen with
  | nil => simp [discover]
  | cons head rest hypothesis =>
    rw [discover]
    split
    · rename_i old
      rw [hypothesis, mem_cons]
      constructor
      · tauto
      · rintro (marked | rfl | later)
        · exact .inl marked
        · exact .inl old
        · exact .inr later
    · rw [hypothesis, mem_cons, mem_cons]
      tauto

theorem mem_discover_listed (item : Item) :
    item ∈ (discover seen items).2 ↔ item ∈ items ∧ item ∉ seen := by
  induction items generalizing seen with
  | nil => simp [discover]
  | cons head rest hypothesis =>
    rw [discover]
    split
    · rename_i old
      rw [hypothesis, mem_cons]
      constructor
      · tauto
      · rintro ⟨rfl | later, fresh⟩
        · exact absurd old fresh
        · exact ⟨later, fresh⟩
    · rename_i fresh
      rw [mem_cons, hypothesis, mem_cons, mem_cons]
      by_cases same : item = head
      · simp [same, fresh]
      · simp [same]

theorem discover_paid (candidates seen items : List Item) (among : items ⊆ candidates) :
    (candidates.filter fun item => item ∉ (discover seen items).1).length +
      (discover seen items).2.length ≤ (candidates.filter fun item => item ∉ seen).length := by
  induction items generalizing seen with
  | nil => exact le_rfl
  | cons item rest hypothesis =>
    obtain ⟨here, later⟩ := cons_subset.mp among
    rw [discover]
    split
    · exact hypothesis seen later
    · rename_i fresh
      have paid := hypothesis (item :: seen) later
      have counted := countP_unmarked_mark candidates fresh
      have listed := count_pos_iff.mpr here
      rw [countP_eq_length_filter, countP_eq_length_filter] at counted
      dsimp only [length_cons]
      omega

end Worklist

/-
This file is about programs with a state and errors that leave the state as it was reached.

`Ensures` is a rule of pre- and postconditions: from a state with the one property a program, also
one that fails, leads to a state with the other. `Keeps` is the case of an invariant. There is one
rule for each way to build a program.
-/

import Mathlib

abbrev Program (Error State Value : Type) := ExceptT Error (StateM State) Value

namespace Program

variable {Error State Value Other Item : Type}

def perform (program : Program Error State Value) (state : State) : Except Error Value × State :=
  program.run.run state

def lift (result : Except Error Value) : Program Error State Value := ExceptT.mk (pure result)

def orElse (program : Program Error State Value) (handler : Error → Program Error State Value) :
    Program Error State Value :=
  tryCatch program handler

variable (program : Program Error State Value)

theorem perform_bind (next : Value → Program Error State Other) (state : State) :
    (program >>= next).perform state =
      match program.perform state with
      | (.ok value, reached) => (next value).perform reached
      | (.error error, reached) => (.error error, reached) := by
  show StateT.run (ExceptT.bindCont next (program.perform state).1) (program.perform state).2 = _
  cases program.perform state with
  | mk result reached => cases result <;> rfl

theorem perform_orElse (handler : Error → Program Error State Value) (state : State) :
    (program.orElse handler).perform state =
      match program.perform state with
      | (.ok value, reached) => (.ok value, reached)
      | (.error error, reached) => (handler error).perform reached := by
  show StateT.run (match (program.perform state).1 with
    | .ok value => pure (.ok value)
    | .error error => (handler error).run) (program.perform state).2 = _
  cases program.perform state with
  | mk result reached => cases result <;> rfl

def Ensures (before : State → Prop) (program : Program Error State Value) (after : State → Prop) :
    Prop :=
  ∀ state, before state → after (program.perform state).2

abbrev Keeps (invariant : State → Prop) (program : Program Error State Value) : Prop :=
  Ensures invariant program invariant

section Rules

variable {before after invariant : State → Prop}

theorem keeps_pure (value : Value) :
    Keeps invariant (pure value : Program Error State Value) := fun _ holds => holds

theorem keeps_lift (result : Except Error Value) :
    Keeps invariant (lift result : Program Error State Value) := fun _ holds => holds

theorem ensures_modify {change : State → State}
    (changes : ∀ state, before state → after (change state)) :
    Ensures before (modify change : Program Error State PUnit) after :=
  changes

theorem ensures_get_bind {next : State → Program Error State Value}
    (rest : ∀ state, Ensures (fun other => other = state ∧ before other) (next state) after) :
    Ensures before (get >>= next) after := by
  intro state holds
  rw [perform_bind]
  exact rest state state ⟨rfl, holds⟩

variable {next : Value → Program Error State Other}

theorem ensures_lift_bind {result : Except Error Value}
    (failed : ∀ state, before state → after state)
    (rest : ∀ value, result = .ok value → Ensures before (next value) after) :
    Ensures before (lift result >>= next) after := by
  intro state holds
  rw [perform_bind]
  cases result with
  | ok value => exact rest value rfl state holds
  | error error => exact failed state holds

variable {program : Program Error State Value}

theorem keeps_bind (first : Keeps invariant program)
    (rest : ∀ value, Keeps invariant (next value)) : Keeps invariant (program >>= next) := by
  intro state holds
  have kept := first state holds
  rw [perform_bind]
  generalize program.perform state = reached at kept
  obtain ⟨result, reached⟩ := reached
  cases result with
  | ok value => exact rest value reached kept
  | error error => exact kept

theorem keeps_orElse {handler : Error → Program Error State Value}
    (first : Keeps invariant program) (rest : ∀ error, Keeps invariant (handler error)) :
    Keeps invariant (program.orElse handler) := by
  intro state holds
  have kept := first state holds
  rw [perform_orElse]
  generalize program.perform state = reached at kept
  obtain ⟨result, reached⟩ := reached
  cases result with
  | ok value => exact kept
  | error error => exact rest error reached kept

theorem keeps_forM {items : List Item} {body : Item → Program Error State PUnit}
    (each : ∀ item, Keeps invariant (body item)) : Keeps invariant (items.forM body) := by
  induction items with
  | nil => exact keeps_pure _
  | cons item rest hypothesis =>
    exact keeps_bind (each item) fun _ => hypothesis

end Rules

end Program

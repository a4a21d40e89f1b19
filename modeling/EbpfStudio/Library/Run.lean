/-
This file states what a whole run of a state machine preserves.

A run folds a step over a list of inputs. The rules are inductions on the history from its end. An
invariant may depend on the history (`run_induction`), need a condition on each step (`StepsMeet`)
or relate two machines (`run_lockstep`). `collect` lists what the steps put out, and `run_conserves`
is the balance of a machine that loses no item.
-/

import Mathlib

namespace Run

open List Option

variable {State Input : Type}

def run (step : State → Input → State) (start : State) (inputs : List Input) : State :=
  inputs.foldl step start

section

variable (step : State → Input → State) (start : State)

@[simp] theorem run_nil : run step start [] = start := rfl

theorem run_append (first second : List Input) :
    run step start (first ++ second) = run step (run step start first) second :=
  foldl_append

theorem run_snoc (history : List Input) (input : Input) :
    run step start (history ++ [input]) = step (run step start history) input := by
  simp [run]

end

theorem forall_mem_snoc {property : Input → Prop} {history : List Input} {input : Input}
    (before : ∀ other ∈ history, property other) (now : property input) :
    ∀ other ∈ history ++ [input], property other :=
  forall_mem_append.mpr ⟨before, forall_mem_singleton.mpr now⟩

theorem foldlM_snoc (step : State → Input → Option State) (start : State) (history : List Input)
    (input : Input) :
    (history ++ [input]).foldlM step start = (history.foldlM step start).bind (step · input) := by
  rw [foldlM_append]
  refine congrArg ((history.foldlM step start).bind ·) (funext fun next => ?_)
  exact foldlM_cons.trans (bind_pure _)

variable {step : State → Input → State} {start : State} (invariant : List Input → State → Prop)

/-- What holds initially and is kept by every step from a reachable state holds after every
run. The step may use the history that led to it. -/
theorem run_induction (initial : invariant [] start)
    (preserved : ∀ history input, invariant history (run step start history) →
      invariant (history ++ [input]) (step (run step start history) input))
    (inputs : List Input) : invariant inputs (run step start inputs) := by
  induction inputs using reverseRecOn with
  | nil => exact initial
  | append_singleton history input hypothesis =>
    rw [run_snoc]
    exact preserved history input hypothesis

variable {input : Input}

theorem append_eq_of_split {history before after : List Input}
    (split : history = before ++ input :: after) (more : List Input) :
    history ++ more = before ++ input :: (after ++ more) := by
  rw [split, append_assoc, cons_append]

/-- The same rule where only some runs are considered: those all of whose steps meet a
condition on the history before them. -/
def StepsMeet (condition : List Input → Input → Prop) (inputs : List Input) : Prop :=
  ∀ history input rest, inputs = history ++ input :: rest → condition history input

variable {condition : List Input → Input → Prop}

theorem StepsMeet.of_append {first second : List Input}
    (meets : StepsMeet condition (first ++ second)) : StepsMeet condition first := by
  intro history input rest split
  exact meets history input (rest ++ second) (append_eq_of_split split second)

variable {history : List Input}

theorem StepsMeet.last (meets : StepsMeet condition (history ++ [input])) :
    condition history input :=
  meets history input [] rfl

theorem stepsMeet_nil (condition : List Input → Input → Prop) : StepsMeet condition [] := by
  intro history input rest split
  cases history <;> cases split

theorem eq_or_exists_of_snoc_eq {history before rest : List Input} {last input : Input}
    (split : history ++ [last] = before ++ input :: rest) :
    (history = before ∧ last = input) ∨ ∃ middle, history = before ++ input :: middle := by
  rcases eq_nil_or_concat rest with rfl | ⟨middle, final, rfl⟩
  · obtain ⟨same, lastly⟩ := append_inj' split rfl
    exact Or.inl ⟨same, (cons.inj lastly).1⟩
  · rw [concat_eq_append, ← cons_append, ← append_assoc] at split
    exact Or.inr ⟨middle, (append_inj' split rfl).1⟩

theorem StepsMeet.snoc (meets : StepsMeet condition history) (last : condition history input) :
    StepsMeet condition (history ++ [input]) := by
  intro before other rest split
  rcases eq_or_exists_of_snoc_eq split with ⟨rfl, rfl⟩ | ⟨middle, earlier⟩
  · exact last
  · exact meets before other middle earlier

theorem run_induction_of_stepsMeet (initial : invariant [] start)
    (preserved : ∀ history input, condition history input →
      invariant history (run step start history) → invariant (history ++ [input])
      (step (run step start history) input))
    (inputs : List Input) (meets : StepsMeet condition inputs) :
    invariant inputs (run step start inputs) := by
  induction inputs using reverseRecOn with
  | nil => exact initial
  | append_singleton history input hypothesis =>
    rw [run_snoc]
    exact preserved history input meets.last (hypothesis meets.of_append)

section

variable {First Second : Type} {firstStep : First → Input → First}
  {secondStep : Second → Input → Second} {first : First} {second : Second}

variable (relation : List Input → First → Second → Prop)

/-- A relation that holds initially and is kept when both machines take the same input holds
after every run of the two. -/
theorem run_lockstep (initial : relation [] first second)
    (preserved : ∀ history input, relation history (run firstStep first history)
      (run secondStep second history) → relation (history ++ [input])
      (firstStep (run firstStep first history) input)
      (secondStep (run secondStep second history) input))
    (inputs : List Input) :
    relation inputs (run firstStep first inputs) (run secondStep second inputs) := by
  refine run_induction (fun history state => relation history state (run secondStep second history))
    initial (fun history input known => ?_) inputs
  rw [run_snoc]
  exact preserved history input known

theorem run_lockstep_filter {keep : Input → Bool} (initial : relation [] first second)
    (taken : ∀ history input, keep input = true → relation history (run firstStep first history)
      (run secondStep second (history.filter keep)) → relation (history ++ [input])
      (firstStep (run firstStep first history) input)
      (secondStep (run secondStep second (history.filter keep)) input))
    (skipped : ∀ history input, keep input = false → relation history (run firstStep first history)
      (run secondStep second (history.filter keep)) → relation (history ++ [input])
      (firstStep (run firstStep first history) input) (run secondStep second (history.filter keep)))
    (inputs : List Input) :
    relation inputs (run firstStep first inputs)
      (run secondStep second (inputs.filter keep)) := by
  refine run_induction (fun history state =>
    relation history state (run secondStep second (history.filter keep))) initial
    (fun history input known => ?_) inputs
  rw [filter_append, filter_singleton]
  cases kept : keep input with
  | true =>
    rw [cond_true, run_snoc]
    exact taken history input kept known
  | false =>
    rw [cond_false, append_nil]
    exact skipped history input kept known

end

theorem filterMap_snoc {Output : Type} (read : Input → Option Output) (history : List Input)
    (input : Input) :
    (history ++ [input]).filterMap read = history.filterMap read ++ (read input).toList := by
  rw [filterMap_append]
  cases found : read input <;> simp [found]

def lastMatch (matching : Input → Bool) (history : List Input) : Option Input :=
  (history.filter matching).getLast?

variable (matching : Input → Bool)

@[simp] theorem lastMatch_nil : lastMatch matching [] = none := rfl

theorem lastMatch_snoc (history : List Input) (input : Input) :
    lastMatch matching (history ++ [input]) =
      if matching input then some input else lastMatch matching history := by
  unfold lastMatch
  rw [filter_append]
  split <;> simp [*]

theorem lastMatch_eq_some_iff {matching : Input → Bool} {found : Input} :
    lastMatch matching history = some found ↔
      ∃ before after, history = before ++ found :: after ∧ matching found = true ∧
        ∀ input ∈ after, matching input = false := by
  constructor
  · intro last
    obtain ⟨earlier, kept⟩ := getLast?_eq_some_iff.mp last
    obtain ⟨first, second, rfl, -, own⟩ := filter_eq_append_iff.mp kept
    obtain ⟨skipped, after, rfl, -, matched, none_⟩ := filter_eq_cons_iff.mp own
    refine ⟨first ++ skipped, after, (append_assoc _ _ _).symm, matched, fun input member => ?_⟩
    exact Bool.eq_false_iff.mpr (filter_eq_nil_iff.mp none_ input member)
  · rintro ⟨before, after, rfl, matched, rest⟩
    have none_after : after.filter matching = [] :=
      filter_eq_nil_iff.mpr fun input member => by simp [rest input member]
    simp [lastMatch, matched, none_after]

def collect {Output : Type} (step : State → Input → State)
    (output : State → Input → Option Output) : State → List Input → List Output
  | _, [] => []
  | state, input :: rest =>
    (output state input).toList ++ collect step output (step state input) rest

section

variable {Output : Type} (step : State → Input → State) (output : State → Input → Option Output)
  (start : State)

theorem collect_append (first second : List Input) :
    collect step output start (first ++ second) =
      collect step output start first ++ collect step output (run step start first) second := by
  induction first generalizing start with
  | nil => rfl
  | cons input rest hypothesis =>
    rw [cons_append, collect, hypothesis, collect, append_assoc]
    rfl

theorem collect_snoc (history : List Input) (input : Input) :
    collect step output start (history ++ [input]) =
      collect step output start history ++ (output (run step start history) input).toList := by
  rw [collect_append, collect, collect, append_nil]

end

theorem collect_map {Output Other : Type} (step : State → Input → State)
    (output : State → Input → Option Output) (view : Output → Other) (start : State)
    (inputs : List Input) :
    collect step (fun state input => (output state input).map view) start inputs =
      (collect step output start inputs).map view := by
  induction inputs generalizing start with
  | nil => rfl
  | cons input rest hypothesis =>
    rw [collect, collect, hypothesis, map_append, toList_map]

section

variable {Output : Type} {step : State → Input → State} {output : State → Input → Option Output}

theorem mem_collect {start : State} {inputs : List Input} {result : Output} :
    result ∈ collect step output start inputs ↔
      ∃ history input rest, inputs = history ++ input :: rest ∧
        output (run step start history) input = some result := by
  induction inputs generalizing start with
  | nil =>
    refine ⟨fun member => absurd member not_mem_nil, ?_⟩
    rintro ⟨history, input, rest, split, -⟩
    exact absurd split (append_ne_nil_of_right_ne_nil _ (cons_ne_nil _ _)).symm
  | cons first rest hypothesis =>
    rw [collect, mem_append, mem_toList, hypothesis]
    constructor
    · rintro (now | ⟨history, input, after, rfl, later⟩)
      · exact ⟨[], first, rest, rfl, now⟩
      · exact ⟨first :: history, input, after, rfl, later⟩
    · rintro ⟨history, input, after, split, found⟩
      cases history with
      | nil =>
        cases split
        exact Or.inl found
      | cons earlier history =>
        cases split
        exact Or.inr ⟨history, input, after, rfl, found⟩

theorem run_appends (appended : State → List Output)
    (appends : ∀ state input,
      appended (step state input) = appended state ++ (output state input).toList) (start : State)
    (inputs : List Input) :
    appended (run step start inputs) = appended start ++ collect step output start inputs := by
  refine run_induction (fun history state =>
    appended state = appended start ++ collect step output start history)
    (append_nil _).symm (fun history input known => ?_) inputs
  rw [appends, known, collect_snoc, append_assoc]

end

def total (step : State → Input → State) (amount : State → Input → Nat) (start : State)
    (inputs : List Input) : Nat :=
  (collect step (fun state input => some (amount state input)) start inputs).sum

theorem total_snoc (step : State → Input → State) (amount : State → Input → Nat) (start : State)
    (history : List Input) (input : Input) :
    total step amount start (history ++ [input]) =
      total step amount start history + amount (run step start history) input := by
  unfold total
  rw [collect_snoc, sum_append, toList_some, sum_singleton]

theorem total_eq_zero_iff {amount : State → Input → Nat} {inputs : List Input} :
    total step amount start inputs = 0 ↔
      StepsMeet (fun history input => amount (run step start history) input = 0) inputs := by
  unfold total
  rw [List.sum_eq_zero_iff_forall_eq_nat]
  constructor
  · intro zero history input rest split
    exact zero _ (mem_collect.mpr ⟨history, input, rest, split, rfl⟩)
  · intro meets value member
    obtain ⟨history, input, rest, split, found⟩ := mem_collect.mp member
    rw [← some.inj found]
    exact meets history input rest split

/-- When every step exchanges what leaves the waiting items for what arrives, then the items
that have arrived in a run are those that still wait, those that were taken, and those that the
machine listed as lost. -/
theorem run_conserves {Item Name : Type} [DecidableEq Item] (waiting : State → List Item)
    (listed : State → List Name) {arrives : Input → List Item}
    {taken : State → Input → Option Item} {lost : State → Input → List Item} {name : Item → Name}
    (exchange : ∀ state input, (waiting (step state input) ++
      ((taken state input).toList ++ lost state input)).Perm (waiting state ++ arrives input))
    (lists : ∀ state input, listed (step state input) = listed state ++ (lost state input).map name)
    (none_ : waiting start = []) (unlisted : listed start = []) (inputs : List Input) :
    ∃ gone : List Item, listed (run step start inputs) = gone.map name ∧
      (waiting (run step start inputs) ++ (collect step taken start inputs ++ gone)).Perm
        (inputs.flatMap arrives) := by
  refine run_induction (fun history state => ∃ gone : List Item, listed state = gone.map name ∧
    (waiting state ++ (collect step taken start history ++ gone)).Perm (history.flatMap arrives))
    ⟨[], unlisted, by rw [none_]; exact List.Perm.refl _⟩ (fun history input known => ?_) inputs
  obtain ⟨gone, names, accounted⟩ := known
  refine ⟨gone ++ lost (run step start history) input, ?_, ?_⟩
  · rw [lists, names, map_append]
  · have now := exchange (run step start history) input
    rw [collect_snoc, flatMap_append, flatMap_singleton]
    rw [perm_iff_count] at accounted now ⊢
    intro item
    have countedBefore := accounted item
    have countedNow := now item
    simp only [count_append] at countedBefore countedNow ⊢
    omega

end Run

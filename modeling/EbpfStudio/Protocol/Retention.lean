/-
This file settles how many records an engine retains.

Five of the six collections are pushed through the bound: a full collection drops its oldest tenth
first. The observations of file operations alone are appended without it. So every event keeps the
bound but for such an observation that finds a full collection, and the bound holds throughout
exactly if this does not happen.
-/

import EbpfStudio.Protocol.EngineLaws

namespace EbpfStudio

open Run List

namespace AnalysisEngine

structure Bounded (engine : AnalysisEngine) : Prop where
  completed : engine.completed.length ≤ maxAnalysisSamples
  schedulerWaits : engine.schedulerWaits.length ≤ maxAnalysisSamples
  fileIos : engine.fileIos.length ≤ maxAnalysisSamples
  pipelineObservations : engine.pipelineObservations.length ≤ maxAnalysisSamples
  graphNodes : engine.graphNodes.length ≤ maxAnalysisSamples
  graphEdges : engine.graphEdges.length ≤ maxAnalysisSamples

/-- An event that appends the observation of a file operation finds room for it. -/
def LeavesRoom (engine : AnalysisEngine) (event : StorageEvent) : Prop :=
  ∀ file, event = .fileIo file → file.startTsNs ≤ file.endTsNs →
    engine.pipelineObservations.length < maxAnalysisSamples

variable {Record : Type} {values : List Record}

theorem length_boundedPush (value : Record) (within : values.length ≤ maxAnalysisSamples) :
    (boundedPush false values value).length ≤ maxAnalysisSamples := by
  unfold boundedPush evict
  rw [length_append, length_singleton]
  by_cases full : values.length = maxAnalysisSamples
  · rw [if_pos (by simp [full]), length_drop, full]
    decide
  · rw [if_neg (by simp [full])]
    omega

theorem length_pushSome (value : Option Record) (within : values.length ≤ maxAnalysisSamples) :
    (pushSome false values value).length ≤ maxAnalysisSamples := by
  cases value with
  | none => exact within
  | some value => exact length_boundedPush value within

variable {engine : AnalysisEngine}

theorem length_schedulerWaitsAfter (event : StorageEvent)
    (within : engine.schedulerWaits.length ≤ maxAnalysisSamples) :
    (engine.schedulerWaitsAfter event).length ≤ maxAnalysisSamples := by
  cases event with
  | schedulerIoWait wait =>
    unfold schedulerWaitsAfter
    dsimp only
    split
    · rw [length_append, length_singleton]
      split
      · have dropped : maxAnalysisSamples - maxAnalysisSamples / 10 + 1 ≤ maxAnalysisSamples := by
          decide
        rw [length_drop]
        omega
      · omega
    · exact within
  | _ => exact within

theorem length_observationsAfter {event : StorageEvent}
    (bounding : engine.retainAllEvidence = false) (room : engine.LeavesRoom event)
    (within : engine.pipelineObservations.length ≤ maxAnalysisSamples) :
    (engine.observationsAfter event).length ≤ maxAnalysisSamples := by
  cases event with
  | fileIo file =>
    unfold observationsAfter
    dsimp only
    split
    · rename_i ordered
      have free := room file rfl ordered
      rw [length_append, length_singleton]
      exact free
    · exact within
  | pipeline observation =>
    unfold observationsAfter
    rw [bounding]
    exact length_pushSome _ within
  | _ => exact within

theorem bounded_step {event : StorageEvent} (bounding : engine.retainAllEvidence = false)
    (room : engine.LeavesRoom event) (bounded : engine.Bounded) : (engine.step event).Bounded where
  completed := by
    rw [completed_step, bounding]
    exact length_pushSome _ bounded.completed
  schedulerWaits := by
    rw [schedulerWaits_step]
    exact length_schedulerWaitsAfter event bounded.schedulerWaits
  fileIos := by
    rw [fileIos_step, bounding]
    exact length_pushSome _ bounded.fileIos
  pipelineObservations := by
    rw [pipelineObservations_step]
    exact length_observationsAfter bounding room bounded.pipelineObservations
  graphNodes := by
    rw [graphNodes_step, bounding]
    exact length_pushSome _ bounded.graphNodes
  graphEdges := by
    rw [graphEdges_step, bounding]
    exact length_pushSome _ bounded.graphEdges

variable (engine : AnalysisEngine)

theorem retainAllEvidence_run (events : List StorageEvent) :
    (run step engine events).retainAllEvidence = engine.retainAllEvidence :=
  run_induction (fun _ (reached : AnalysisEngine) =>
      reached.retainAllEvidence = engine.retainAllEvidence) rfl
    (fun _ event same => (retainAllEvidence_step _ event).trans same) events

theorem bounded_fresh (correlationTtlNs : U64) (ttlPositive : 0 < correlationTtlNs)
    (completionWindow : Option (U64 × U64)) :
    (fresh correlationTtlNs ttlPositive completionWindow).Bounded :=
  ⟨Nat.zero_le _, Nat.zero_le _, Nat.zero_le _, Nat.zero_le _, Nat.zero_le _, Nat.zero_le _⟩

theorem length_observations_fileIo {file : FileIo} (ordered : file.startTsNs ≤ file.endTsNs) :
    (engine.step (.fileIo file)).pipelineObservations.length =
      engine.pipelineObservations.length + 1 := by
  rw [pipelineObservations_step]
  unfold observationsAfter
  dsimp only
  rw [if_pos ordered, length_append, length_singleton]

/-- An engine that evicts stays within the bound at every point of a run exactly when every
file operation that ends after it starts finds room among the observations. -/
theorem run_bounded_iff_leavesRoom (correlationTtlNs : U64) (ttlPositive : 0 < correlationTtlNs)
    (completionWindow : Option (U64 × U64)) (events : List StorageEvent) :
    let start := fresh correlationTtlNs ttlPositive completionWindow
    (∀ history rest, events = history ++ rest → (run step start history).Bounded) ↔
      StepsMeet (fun history event => (run step start history).LeavesRoom event) events := by
  intro start
  constructor
  · intro bounded history event rest place file same ordered
    subst same
    have after := bounded (history ++ [.fileIo file]) rest (by rw [place, append_cons])
    have within := after.pipelineObservations
    rw [run_snoc, length_observations_fileIo _ ordered] at within
    exact within
  · rintro meets history rest rfl
    refine run_induction_of_stepsMeet (fun _ (reached : AnalysisEngine) => reached.Bounded)
      (bounded_fresh correlationTtlNs ttlPositive completionWindow)
      (fun before event room bounded => ?_) history meets.of_append
    exact bounded_step (retainAllEvidence_run start before) room bounded

theorem run_bounded_iff_leavesRoom_one :
    let start := fresh 30_000_000_000 (by decide) none
    (∀ history rest, [StorageEvent.fileIo (readFile 0 1)] = history ++ rest →
      (run step start history).Bounded) ↔
      StepsMeet (fun history event => (run step start history).LeavesRoom event)
        [.fileIo (readFile 0 1)] :=
  run_bounded_iff_leavesRoom 30_000_000_000 (by decide) none [.fileIo (readFile 0 1)]

theorem length_observations_replicate (count : Nat) :
    (run step new (List.replicate count (.fileIo (readFile 0 1)))).pipelineObservations.length =
      count := by
  induction count with
  | zero => rfl
  | succ count hypothesis =>
    rw [replicate_succ', run_snoc, length_observations_fileIo _ (by decide),
      hypothesis]

/-- One file operation more than the bound. -/
theorem run_exceeds_bound :
    ¬ (run step new
      (List.replicate (maxAnalysisSamples + 1) (.fileIo (readFile 0 1)))).Bounded := by
  intro bounded
  have within := bounded.pipelineObservations
  rw [length_observations_replicate] at within
  omega

theorem pushSome_of_room (retainAll : Bool) (value : Option Record)
    (room : values.length < maxAnalysisSamples) :
    pushSome retainAll values value = values ++ value.toList := by
  cases value with
  | none => exact (append_nil _).symm
  | some value =>
    rw [pushSome_some, boundedPush, evict, if_neg (by simp [ne_of_lt room])]
    rfl

theorem length_pushSome_le (retainAll : Bool) (values : List Record) (value : Option Record) :
    (pushSome retainAll values value).length ≤ values.length + value.toList.length := by
  cases value with
  | none => exact le_rfl
  | some value =>
    rw [pushSome_some, boundedPush, length_append]
    refine Nat.add_le_add_right ?_ _
    unfold evict
    split
    · rw [length_drop]
      exact Nat.sub_le _ _
    · exact le_rfl

end AnalysisEngine

end EbpfStudio

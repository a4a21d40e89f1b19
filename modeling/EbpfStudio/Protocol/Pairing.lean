/-
This file settles which stage spans an engine synthesises.

A begin that waits is the last event of its stage (`WaitingIsLast`), and a stage is not both waiting
and ambiguous (`Apart`). An end takes the begin that waits whatever its age, for old begins are
swept only after the pairing. So a span is in time exactly if its end arrives in time.
-/

import EbpfStudio.Protocol.EngineLaws

namespace EbpfStudio

open Run List Option Table Bool StagePairing PipelineObservation

def PipelineObservation.delimits (observation : PipelineObservation) (key : StageKey) : Bool :=
  (observation.phase = .beginPhase || observation.phase = .endPhase) &&
    stageOf observation = some key

def StorageEvent.delimits (key : StageKey) : StorageEvent → Bool
  | .pipeline observation => observation.delimits key
  | _ => false

namespace StagePairing

variable {stages : StagePairing}

theorem lookup_sweep {newest : U64} {key : StageKey} {start : PipelineObservation}
    (found : (stages.sweep newest).pendingPipeline.lookup key = some start) :
    stages.pendingPipeline.lookup key = some start := by
  unfold sweep at found
  rw [lookup_retain] at found
  exact (filter_eq_some_iff.mp found).1

theorem lookup_start {key other : StageKey} {observation start : PipelineObservation}
    (found : (stages.start key observation).pendingPipeline.lookup other = some start) :
    (other = key ∧ start = observation) ∨
      (other ≠ key ∧ stages.pendingPipeline.lookup other = some start) := by
  unfold StagePairing.start containsKey at found
  by_cases same : other = key
  · subst same
    split at found
    · rw [lookup_erase_eq, if_pos rfl] at found
      cases found
    · rename_i idle
      split at found
      · rw [found] at idle
        exact absurd rfl idle
      · rw [lookup_insert_eq, if_pos rfl] at found
        cases found
        exact .inl ⟨rfl, rfl⟩
  · refine .inr ⟨same, ?_⟩
    split at found
    · rw [lookup_erase_eq, if_neg same] at found
      exact found
    · split at found
      · exact found
      · rw [lookup_insert_eq, if_neg same] at found
        exact found

theorem lookup_take {newest : U64} {observation start : PipelineObservation} {key : StageKey}
    (found : (stages.take newest observation).1.pendingPipeline.lookup key = some start) :
    (start = observation ∧ observation.phase = .beginPhase ∧ stageOf observation = some key) ∨
      (stages.pendingPipeline.lookup key = some start ∧ observation.delimits key = false) := by
  have elsewhere : ∀ {other : StageKey}, stageOf observation = some other → key ≠ other →
      observation.delimits key = false := by
    intro other stage different
    simp [PipelineObservation.delimits, stage, Ne.symm different]
  unfold take at found
  split at found
  · rename_i other phase stage
    rcases lookup_start (lookup_sweep found) with ⟨rfl, rfl⟩ | ⟨different, waited⟩
    · exact .inl ⟨rfl, phase, stage⟩
    · exact .inr ⟨waited, elsewhere stage different⟩
  · rename_i other phase stage
    have erased : (stages.pendingPipeline.erase other).lookup key = some start := by
      split at found
      · exact found
      · exact lookup_sweep found
    rw [lookup_erase_eq] at erased
    split at erased
    · cases erased
    · rename_i different
      exact .inr ⟨erased, elsewhere stage different⟩
  · rename_i noBegin noEnd
    refine .inr ⟨lookup_sweep found, ?_⟩
    by_contra delimits
    simp only [PipelineObservation.delimits, not_eq_false, and_eq_true,
      or_eq_true, decide_eq_true_eq] at delimits
    obtain ⟨phase | phase, stage⟩ := delimits
    · exact noBegin key phase stage
    · exact noEnd key phase stage

def Apart (stages : StagePairing) : Prop :=
  ∀ key, stages.pendingPipeline.lookup key = none ∨ stages.ambiguousPipeline.lookup key = none

theorem Apart.mono {stages fewer : StagePairing} (apart : stages.Apart)
    (pending : ∀ key, stages.pendingPipeline.lookup key = none →
      fewer.pendingPipeline.lookup key = none)
    (ambiguous : ∀ key, stages.ambiguousPipeline.lookup key = none →
      fewer.ambiguousPipeline.lookup key = none) : fewer.Apart := fun key =>
  (apart key).imp (pending key) (ambiguous key)

theorem Apart.sweep (apart : stages.Apart) (newest : U64) : (stages.sweep newest).Apart := by
  refine apart.mono (fun key absent => ?_) (fun key absent => ?_)
  · unfold StagePairing.sweep
    rw [lookup_retain, absent]
    rfl
  · unfold StagePairing.sweep
    rw [lookup_retain, absent]
    rfl

theorem lookup_erase_of_none {Value : Type} {table : Table StageKey Value} {key : StageKey}
    (other : StageKey) (absent : table.lookup key = none) :
    (table.erase other).lookup key = none := by
  rw [lookup_erase_eq]
  split
  · rfl
  · exact absent

theorem Apart.start (apart : stages.Apart) (key : StageKey) (observation : PipelineObservation) :
    (stages.start key observation).Apart := by
  intro other
  unfold StagePairing.start containsKey
  split
  · dsimp only
    rw [lookup_erase_eq, lookup_insert_eq]
    by_cases same : other = key
    · exact .inl (if_pos same)
    · rw [if_neg same, if_neg same]
      exact apart other
  · split
    · exact apart other
    · rename_i clear
      rw [lookup_insert_eq]
      by_cases same : other = key
      · subst same
        exact .inr (not_isSome_iff_eq_none.mp clear)
      · rw [if_neg same]
        exact apart other

theorem Apart.take (apart : stages.Apart) (newest : U64) (observation : PipelineObservation) :
    (stages.take newest observation).1.Apart := by
  unfold StagePairing.take
  split
  · exact (apart.start _ _).sweep newest
  · rename_i key _ _
    split
    · exact apart.mono (fun _ => lookup_erase_of_none key) (fun _ => lookup_erase_of_none key)
    · refine Apart.sweep (apart.mono (fun _ => lookup_erase_of_none key) fun _ absent => ?_) newest
      exact absent
  · exact apart.sweep newest

theorem take_end (apart : stages.Apart) {newest : U64} {finish : PipelineObservation}
    {key : StageKey} (phase : finish.phase = .endPhase) (stage : stageOf finish = some key) :
    (stages.take newest finish).2 =
      (stages.pairedBegin key finish).map fun start => pairedSpan start finish := by
  unfold take
  rw [phase, stage]
  dsimp only
  split
  · rename_i ambiguous
    have waiting := (apart key).resolve_right fun absent => by
      rw [containsKey, absent] at ambiguous
      cases ambiguous
    unfold pairedBegin
    rw [waiting]
    rfl
  · rfl

end StagePairing

namespace AnalysisEngine

/-- Every begin that waits is the last begin or end of its stage in the history. -/
def WaitingIsLast (history : List StorageEvent) (engine : AnalysisEngine) : Prop :=
  ∀ key start, engine.stages.pendingPipeline.lookup key = some start →
    start.phase = .beginPhase ∧ stageOf start = some key ∧
      lastMatch (StorageEvent.delimits key) history = some (.pipeline start)

theorem stages_cases (engine : AnalysisEngine) (event : StorageEvent) :
    (∃ observation newest, event = .pipeline observation ∧
      (engine.step event).stages = (engine.stages.take newest observation).1) ∨
      ((∀ key, event.delimits key = false) ∧ (engine.step event).stages = engine.stages) := by
  rw [stages_step]
  cases event with
  | pipeline observation => exact .inl ⟨observation, _, rfl, rfl⟩
  | _ => exact .inr ⟨fun _ => rfl, rfl⟩

variable {engine : AnalysisEngine}

theorem waitingIsLast_step {history : List StorageEvent} (event : StorageEvent)
    (invariant : WaitingIsLast history engine) :
    WaitingIsLast (history ++ [event]) (engine.step event) := by
  intro key start found
  rw [lastMatch_snoc]
  rcases engine.stages_cases event with ⟨observation, newest, rfl, stages⟩ | ⟨other, stages⟩
  · rw [stages] at found
    rcases lookup_take found with ⟨rfl, phase, stage⟩ | ⟨waited, apart⟩
    · refine ⟨phase, stage, if_pos ?_⟩
      simp [StorageEvent.delimits, delimits, phase, stage]
    · obtain ⟨phase, stage, last⟩ := invariant key start waited
      refine ⟨phase, stage, ?_⟩
      rw [if_neg (by simp [StorageEvent.delimits, apart]), last]
  · rw [stages] at found
    obtain ⟨phase, stage, last⟩ := invariant key start found
    refine ⟨phase, stage, ?_⟩
    rw [if_neg (by simp [other key]), last]

section

variable (correlationTtlNs : U64) (ttlPositive : 0 < correlationTtlNs)
  (completionWindow : Option (U64 × U64)) (events : List StorageEvent)

theorem waitingIsLast_run :
    WaitingIsLast events
      (run step (fresh correlationTtlNs ttlPositive completionWindow) events) := by
  refine run_induction WaitingIsLast (fun key start found => ?_)
    (fun _ event invariant => waitingIsLast_step event invariant) events
  cases found

theorem apart_run :
    (run step (fresh correlationTtlNs ttlPositive completionWindow) events).stages.Apart := by
  refine run_induction (fun _ (engine : AnalysisEngine) => engine.stages.Apart)
    (fun _ => .inl rfl) (fun history event apart => ?_) events
  rcases stages_cases (run step _ history) event with ⟨observation, newest, rfl, stages⟩ |
    ⟨-, stages⟩
  · rw [stages]
    exact apart.take newest observation
  · rw [stages]
    exact apart

end

theorem pushSome_eq_boundedPush {Record : Type} {retainAll : Bool} {values : List Record}
    {added : Option Record} {value : Record} :
    pushSome retainAll values added = boundedPush retainAll values value ↔ added = some value := by
  cases added with
  | none =>
    refine ⟨fun same => ?_, fun impossible => by cases impossible⟩
    have lengths := congrArg length same
    unfold boundedPush evict at lengths
    rw [pushSome_none, length_append, length_singleton] at lengths
    split at lengths
    · rename_i full
      have size : values.length = maxAnalysisSamples := by
        simp only [and_eq_true, decide_eq_true_eq] at full
        exact full.2
      rw [length_drop, size] at lengths
      exact absurd lengths (by decide)
    · omega
  | some other =>
    rw [pushSome_some, some.injEq]
    unfold boundedPush
    rw [append_right_inj, singleton_inj]

structure Synthesises (engine : AnalysisEngine) (finish span : PipelineObservation) : Prop where
  phase : finish.phase = .endPhase
  stage : (stageOf finish).isSome
  retained : (engine.step (.pipeline finish)).pipelineObservations =
    boundedPush engine.retainAllEvidence engine.pipelineObservations span

/-- A span joins an end with the last begin of its stage: nothing of the stage lies between
them, the end is not before the begin, and within the time to live of it. -/
def JoinsLastBegin (history : List StorageEvent) (finish span : PipelineObservation) : Prop :=
  ∃ start key before between, span = pairedSpan start finish ∧
    history = before ++ .pipeline start :: between ∧
    start.phase = .beginPhase ∧ stageOf start = some key ∧ stageOf finish = some key ∧
    (∀ event ∈ between, event.delimits key = false) ∧
    start.tsNs ≤ finish.tsNs ∧ finish.tsNs - start.tsNs.val ≤ stageTtlNs

/-- An end of a stage arrives within the time to live of the begin that waits for it. -/
def ArrivesInTime (engine : AnalysisEngine) (event : StorageEvent) : Prop :=
  ∀ finish key start, event = .pipeline finish → finish.phase = .endPhase →
    stageOf finish = some key → engine.stages.pendingPipeline.lookup key = some start →
    finish.tsNs - start.tsNs.val ≤ stageTtlNs

theorem synthesises_iff (apart : engine.stages.Apart) {finish span : PipelineObservation} :
    engine.Synthesises finish span ↔ finish.phase = .endPhase ∧
      ∃ key start, stageOf finish = some key ∧
        engine.stages.pendingPipeline.lookup key = some start ∧ start.tsNs ≤ finish.tsNs ∧
        span = pairedSpan start finish := by
  have retained : ∀ {key}, finish.phase = .endPhase → stageOf finish = some key →
      ((engine.step (.pipeline finish)).pipelineObservations =
        boundedPush engine.retainAllEvidence engine.pipelineObservations span ↔
      ∃ start, engine.stages.pendingPipeline.lookup key = some start ∧
        start.tsNs ≤ finish.tsNs ∧ span = pairedSpan start finish) := by
    intro key phase stage
    rw [pipelineObservations_step]
    refine Iff.trans pushSome_eq_boundedPush ?_
    unfold taken
    rw [take_end apart phase stage]
    unfold pairedBegin
    simp only [map_eq_some_iff, filter_eq_some_iff, decide_eq_true_eq]
    constructor
    · rintro ⟨start, ⟨waiting, ordered⟩, rfl⟩
      exact ⟨start, waiting, ordered, rfl⟩
    · rintro ⟨start, waiting, ordered, rfl⟩
      exact ⟨start, ⟨waiting, ordered⟩, rfl⟩
  constructor
  · rintro ⟨phase, staged, pushed⟩
    obtain ⟨key, stage⟩ := isSome_iff_exists.mp staged
    obtain ⟨start, waiting, ordered, same⟩ := (retained phase stage).mp pushed
    exact ⟨phase, key, start, stage, waiting, ordered, same⟩
  · rintro ⟨phase, key, start, stage, waiting, ordered, same⟩
    exact ⟨phase, by rw [stage]; rfl,
      (retained phase stage).mpr ⟨start, waiting, ordered, same⟩⟩

/-- Every span that a run synthesises joins an end with the last begin of its stage within the
time to live, exactly when no end of the run arrives later than that after the begin that still
waits for it. -/
theorem run_spans_join_iff_arriveInTime (correlationTtlNs : U64)
    (ttlPositive : 0 < correlationTtlNs) (completionWindow : Option (U64 × U64))
    (events : List StorageEvent) :
    let start := fresh correlationTtlNs ttlPositive completionWindow
    (∀ history finish rest span, events = history ++ .pipeline finish :: rest →
      (run step start history).Synthesises finish span → JoinsLastBegin history finish span) ↔
      StepsMeet (fun history event => (run step start history).ArrivesInTime event) events := by
  intro engine
  have apart := apart_run correlationTtlNs ttlPositive completionWindow
  have last := waitingIsLast_run correlationTtlNs ttlPositive completionWindow
  constructor
  · intro joins history event rest place finish key start same phase stage waiting
    subst same
    by_cases ordered : start.tsNs ≤ finish.tsNs
    · have synthesises := (synthesises_iff (apart history)).mpr
        ⟨phase, key, start, stage, waiting, ordered, rfl⟩
      obtain ⟨other, -, -, -, sameSpan, -, -, -, -, -, -, inTime⟩ :=
        joins history finish rest _ place synthesises
      have sameStart : (pairedSpan start finish).tsNs = (pairedSpan other finish).tsNs :=
        congrArg tsNs sameSpan
      show finish.tsNs - (pairedSpan start finish).tsNs.val ≤ stageTtlNs
      rw [sameStart]
      exact inTime
    · have late := Fin.lt_def.mp (not_le.mp ordered)
      omega
  · intro meets history finish rest span place synthesises
    obtain ⟨phase, key, start, stage, waiting, ordered, same⟩ :=
      (synthesises_iff (apart history)).mp synthesises
    obtain ⟨startPhase, startStage, latest⟩ := last history key start waiting
    obtain ⟨before, between, split, -, untouched⟩ := lastMatch_eq_some_iff.mp latest
    exact ⟨start, key, before, between, same, split, startPhase, startStage, stage, untouched,
      ordered, meets history _ rest place finish key start rfl phase stage waiting⟩

def commandObservation (tsNs : U64) (phase : PipelinePhase) : PipelineObservation where
  tsNs := tsNs
  operation := none
  endTsNs := none
  phase := phase
  layer := .scsi
  correlationId := some 7
  stageKey := none
  sector := none
  bytes := none
  opcode := none
  status := none
  pid := 0
  tid := 0
  name := "scsi command"
  confidence := .exact

theorem run_spans_join_iff_arriveInTime_pair :
    let start := fresh 30_000_000_000 (by decide) none
    let events := [StorageEvent.pipeline (commandObservation 0 .beginPhase),
      .pipeline (commandObservation 5 .endPhase)]
    (∀ history finish rest span, events = history ++ .pipeline finish :: rest →
      (run step start history).Synthesises finish span → JoinsLastBegin history finish span) ↔
      StepsMeet (fun history event => (run step start history).ArrivesInTime event) events :=
  run_spans_join_iff_arriveInTime 30_000_000_000 (by decide) none
    [.pipeline (commandObservation 0 .beginPhase), .pipeline (commandObservation 5 .endPhase)]

/-- An end a hundred seconds after its begin, with nothing in between, is joined with it. -/
theorem run_joins_expired_begin :
    let history := [StorageEvent.pipeline (commandObservation 0 .beginPhase)]
    let finish := commandObservation 100_000_000_000 .endPhase
    let span := pairedSpan (commandObservation 0 .beginPhase) finish
    (run step new history).Synthesises finish span ∧ ¬ JoinsLastBegin history finish span := by
  intro history finish span
  refine ⟨⟨rfl, rfl, rfl⟩, ?_⟩
  rintro ⟨start, key, before, between, sameSpan, -, -, -, -, -, -, inTime⟩
  have sameStart : span.tsNs = (pairedSpan start finish).tsNs :=
    congrArg tsNs sameSpan
  have late : finish.tsNs - span.tsNs.val ≤ stageTtlNs := by
    rw [sameStart]
    exact inTime
  exact absurd late (by decide)

end AnalysisEngine

end EbpfStudio

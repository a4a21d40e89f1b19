/-
This file says what one event does to each of the collections an engine retains.

Each collection after an event is given as a function of what it was and of what the event adds
(`Evidence`), and so are the clock, the correlator and the pairing of stages. Invariants of a run
are proved from these equations, without unfolding the ingestion again.
-/

import EbpfStudio.Library.Run
import EbpfStudio.Protocol.Engine

namespace EbpfStudio

open Option

namespace AnalysisEngine

def fresh (correlationTtlNs : U64) (ttlPositive : 0 < correlationTtlNs)
    (completionWindow : Option (U64 × U64)) : AnalysisEngine :=
  { withWindows correlationTtlNs ttlPositive with completionWindow := completionWindow }

structure Evidence where
  retainAllEvidence : Bool
  correlator : RequestCorrelator
  completed : List CompletedIo
  schedulerWaits : List SchedulerIoWait
  fileIos : List FileIo
  pipelineObservations : List PipelineObservation
  stages : StagePairing
  graphNodes : List IoNode
  graphEdges : List IoEdge
  completionWindow : Option (U64 × U64)
  lastRequestCompletion : Table U64 U64
  evidenceWindows : Table RequestCacheKey (U64 × U64)

def evidence (engine : AnalysisEngine) : Evidence where
  retainAllEvidence := engine.retainAllEvidence
  correlator := engine.correlator
  completed := engine.completed
  schedulerWaits := engine.schedulerWaits
  fileIos := engine.fileIos
  pipelineObservations := engine.pipelineObservations
  stages := engine.stages
  graphNodes := engine.graphNodes
  graphEdges := engine.graphEdges
  completionWindow := engine.completionWindow
  lastRequestCompletion := engine.lastRequestCompletion
  evidenceWindows := engine.evidenceWindows

section

variable (engine : AnalysisEngine)

@[simp] theorem evidence_withSummary (summary : AnalysisSummary) :
    (engine.withSummary summary).evidence = engine.evidence := rfl

@[simp] theorem evidence_observeTs (tsNs : U64) :
    (engine.observeTs tsNs).evidence = engine.evidence := rfl

@[simp] theorem evidence_bumpGeneration : engine.bumpGeneration.evidence = engine.evidence := rfl

@[simp] theorem evidence_countFile (file : FileIo) :
    (engine.countFile file).evidence = engine.evidence := by
  simp [countFile]

section

variable (io : CompletedIo)

@[simp] theorem evidence_observeRequestTime :
    (engine.observeRequestTime io).evidence = engine.evidence := by
  unfold observeRequestTime
  split <;> rfl

@[simp] theorem evidence_recordDepth : (engine.recordDepth io).evidence = engine.evidence := by
  unfold recordDepth
  split
  · rfl
  · dsimp only
    split <;> rfl

@[simp] theorem evidence_recordLatency : (engine.recordLatency io).evidence = engine.evidence := by
  unfold recordLatency
  split <;> rfl

@[simp] theorem evidence_recordBucket : (engine.recordBucket io).evidence = engine.evidence := by
  unfold recordBucket
  split <;> rfl

@[simp] theorem evidence_recordCategory :
    (engine.recordCategory io).evidence = engine.evidence := rfl

@[simp] theorem evidence_recordCompleted :
    (engine.recordCompleted io).evidence = engine.evidence := by
  simp [recordCompleted]

end

@[simp] theorem evidence_clocked (observation : PipelineObservation) :
    (engine.clocked observation).evidence = engine.evidence := by
  unfold clocked
  cases observation.endTsNs with
  | none => rw [elim_none, evidence_observeTs, evidence_bumpGeneration]
  | some finish =>
    rw [elim_some, evidence_observeTs, evidence_observeTs, evidence_bumpGeneration]

end

def pushSome {Record : Type} (retainAll : Bool) (values : List Record) (value : Option Record) :
    List Record :=
  value.elim values (boundedPush retainAll values)

variable {Record : Type}

@[simp] theorem pushSome_none (retainAll : Bool) (values : List Record) :
    pushSome retainAll values none = values := rfl

@[simp] theorem pushSome_some (retainAll : Bool) (values : List Record) (value : Record) :
    pushSome retainAll values (some value) = boundedPush retainAll values value := rfl

def answered (engine : AnalysisEngine) : StorageEvent → Option CompletedIo
  | .blockComplete completion => (engine.correlator.onComplete completion).2
  | _ => none

def accepted (engine : AnalysisEngine) (event : StorageEvent) : Option CompletedIo :=
  (engine.answered event).filter fun io => inWindow engine.completionWindow io.completion.tsNs

def projected (engine : AnalysisEngine) : StorageEvent → Option CompletedIo
  | .observedBlockCompletion completed =>
    if placedIn engine.completionWindow completed then some completed else none
  | _ => none

def kept (engine : AnalysisEngine) (event : StorageEvent) : Option CompletedIo :=
  (engine.accepted event).or (engine.projected event)

/-- What the pairing makes of a pipeline observation, at the time the observation moves the
clock to. -/
def taken (engine : AnalysisEngine) (observation : PipelineObservation) :
    StagePairing × Option PipelineObservation :=
  engine.stages.take ((engine.clocked observation).lastTsNs.getD 0) observation

def addedNode : StorageEvent → Option IoNode
  | .node node => some node
  | .requestOrigin origin => some (originNode origin)
  | _ => none

def addedEdge : StorageEvent → Option IoEdge
  | .edge edge => some edge
  | .requestOrigin origin => some (originEdge origin)
  | _ => none

section

variable (engine : AnalysisEngine) (completed : CompletedIo)

@[simp] theorem evidence_countObserved :
    (engine.countObserved completed).evidence = engine.evidence :=
  evidence_observeRequestTime engine completed

theorem evidence_ingestObservedBlockCompletion :
    (engine.ingestObservedBlockCompletion completed).evidence =
      { engine.evidence with
        completed := pushSome engine.retainAllEvidence engine.completed
          (engine.projected (.observedBlockCompletion completed)) } := by
  have counted := engine.evidence_countObserved completed
  have sameWindow : (engine.countObserved completed).completionWindow = engine.completionWindow :=
    congrArg Evidence.completionWindow counted
  unfold ingestObservedBlockCompletion projected
  dsimp only
  rw [sameWindow]
  split
  · have recorded : ((engine.countObserved completed).recordCompleted completed).evidence =
        engine.evidence := by rw [evidence_recordCompleted, counted]
    exact congrArg (fun evidence : Evidence => { evidence with
      completed := boundedPush evidence.retainAllEvidence evidence.completed completed }) recorded
  · exact counted

theorem evidence_acceptCompleted :
    (engine.acceptCompleted completed).evidence =
      { engine.evidence with
        lastRequestCompletion := engine.lastRequestCompletion.insert completed.issue.requestId
          completed.completion.tsNs
        completed :=
          if inWindow engine.completionWindow completed.completion.tsNs then
            boundedPush engine.retainAllEvidence engine.completed completed
          else engine.completed
        evidenceWindows :=
          if inWindow engine.completionWindow completed.completion.tsNs then
            retainWindow engine.retainAllEvidence engine.completed engine.evidenceWindows completed
              (evidenceWindow (engine.lastRequestCompletion.lookup completed.issue.requestId)
                completed)
          else engine.evidenceWindows } := by
  unfold acceptCompleted
  by_cases inside : inWindow engine.completionWindow completed.completion.tsNs
  · have same : inWindow (engine.rememberCompletion completed).completionWindow
        completed.completion.tsNs = true := inside
    rw [if_pos same, if_pos inside, if_pos inside]
    exact congrArg (fun evidence : Evidence => { evidence with
      completed := boundedPush evidence.retainAllEvidence evidence.completed completed
      evidenceWindows := retainWindow evidence.retainAllEvidence evidence.completed
        evidence.evidenceWindows completed
        (evidenceWindow (engine.lastRequestCompletion.lookup completed.issue.requestId)
          completed) }) (evidence_recordCompleted _ completed)
  · have same : ¬ inWindow (engine.rememberCompletion completed).completionWindow
        completed.completion.tsNs = true := inside
    rw [if_neg same, if_neg inside, if_neg inside]
    rfl

theorem evidence_ingestFileIo (file : FileIo) :
    (engine.ingestFileIo file).evidence =
      { engine.evidence with
        pipelineObservations :=
          if file.startTsNs ≤ file.endTsNs then
            engine.pipelineObservations ++ [fileObservation file]
          else engine.pipelineObservations
        fileIos := boundedPush engine.retainAllEvidence engine.fileIos file } :=
  congrArg (fun evidence : Evidence => { evidence with
    pipelineObservations :=
      if file.startTsNs ≤ file.endTsNs then
        evidence.pipelineObservations ++ [fileObservation file]
      else evidence.pipelineObservations
    fileIos := boundedPush evidence.retainAllEvidence evidence.fileIos file })
    (engine.evidence_countFile file)

theorem evidence_pushNode (node : IoNode) :
    (engine.pushNode node).evidence = { engine.evidence with
      graphNodes := boundedPush engine.evidence.retainAllEvidence engine.evidence.graphNodes
        node } := rfl

theorem evidence_pushEdge (edge : IoEdge) :
    (engine.pushEdge edge).evidence = { engine.evidence with
      graphEdges := boundedPush engine.evidence.retainAllEvidence engine.evidence.graphEdges
        edge } := rfl

end

def addedFile : StorageEvent → Option FileIo
  | .fileIo file => some file
  | _ => none

def correlatorAfter (engine : AnalysisEngine) : StorageEvent → RequestCorrelator
  | .blockInsert insert => engine.correlator.onInsert insert
  | .blockIssue issue =>
    (engine.correlator.onIssueClassified issue (engine.classifier.classify issue).2).1
  | .blockComplete completion => (engine.correlator.onComplete completion).1
  | _ => engine.correlator

def schedulerWaitsAfter (engine : AnalysisEngine) : StorageEvent → List SchedulerIoWait
  | .schedulerIoWait wait =>
    if inWindow engine.completionWindow wait.tsNs then
      (if maxAnalysisSamples ≤ engine.schedulerWaits.length then
        engine.schedulerWaits.drop (maxAnalysisSamples / 10) else engine.schedulerWaits) ++ [wait]
    else engine.schedulerWaits
  | _ => engine.schedulerWaits

def observationsAfter (engine : AnalysisEngine) : StorageEvent → List PipelineObservation
  | .fileIo file =>
    if file.startTsNs ≤ file.endTsNs then engine.pipelineObservations ++ [fileObservation file]
    else engine.pipelineObservations
  | .pipeline observation => pushSome engine.retainAllEvidence engine.pipelineObservations
      (engine.taken observation).2
  | _ => engine.pipelineObservations

def stagesAfter (engine : AnalysisEngine) : StorageEvent → StagePairing
  | .pipeline observation => (engine.taken observation).1
  | _ => engine.stages

def lastRequestCompletionAfter (engine : AnalysisEngine) (event : StorageEvent) :
    Table U64 U64 :=
  (engine.answered event).elim engine.lastRequestCompletion fun completed =>
    engine.lastRequestCompletion.insert completed.issue.requestId completed.completion.tsNs

def evidenceWindowsAfter (engine : AnalysisEngine) (event : StorageEvent) :
    Table RequestCacheKey (U64 × U64) :=
  (engine.accepted event).elim engine.evidenceWindows fun completed =>
    retainWindow engine.retainAllEvidence engine.completed engine.evidenceWindows completed
      (evidenceWindow (engine.lastRequestCompletion.lookup completed.issue.requestId) completed)

variable (engine : AnalysisEngine)

theorem ingestBlockComplete_fst (completion : BlockComplete) :
    (engine.ingestBlockComplete completion).1 =
      (engine.correlator.onComplete completion).2.elim
        (((engine.observeTs completion.tsNs).withCorrelator
          (engine.correlator.onComplete completion).1).withSummary { engine.summary with
            uncorrelatedCompletions := engine.summary.uncorrelatedCompletions + 1 })
        ((engine.observeTs completion.tsNs).withCorrelator
          (engine.correlator.onComplete completion).1).acceptCompleted := by
  unfold ingestBlockComplete
  dsimp only [observeTs]
  split <;> rename_i answered <;> rw [answered] <;> rfl

theorem evidence_step_blockComplete (completion : BlockComplete) :
    (engine.step (.blockComplete completion)).evidence =
      { engine.evidence with
        correlator := (engine.correlator.onComplete completion).1
        completed := pushSome engine.retainAllEvidence engine.completed
          (engine.accepted (.blockComplete completion))
        lastRequestCompletion := engine.lastRequestCompletionAfter (.blockComplete completion)
        evidenceWindows := engine.evidenceWindowsAfter (.blockComplete completion) } := by
  unfold lastRequestCompletionAfter evidenceWindowsAfter accepted answered
  dsimp only
  refine (congrArg evidence (engine.ingestBlockComplete_fst completion)).trans ?_
  cases (engine.correlator.onComplete completion).2 with
  | none => rfl
  | some completed =>
    rw [elim_some, evidence_acceptCompleted]
    by_cases inside : inWindow engine.completionWindow completed.completion.tsNs
    · simp only [filter_some, withCorrelator, observeTs, inside, if_true]
      rfl
    · simp only [filter_some, withCorrelator, observeTs, inside]
      rfl

theorem evidence_step (event : StorageEvent) :
    (engine.step event).evidence =
      { retainAllEvidence := engine.retainAllEvidence
        correlator := engine.correlatorAfter event
        completed := pushSome engine.retainAllEvidence engine.completed (engine.kept event)
        schedulerWaits := engine.schedulerWaitsAfter event
        fileIos := pushSome engine.retainAllEvidence engine.fileIos (addedFile event)
        pipelineObservations := engine.observationsAfter event
        stages := engine.stagesAfter event
        graphNodes := pushSome engine.retainAllEvidence engine.graphNodes (addedNode event)
        graphEdges := pushSome engine.retainAllEvidence engine.graphEdges (addedEdge event)
        completionWindow := engine.completionWindow
        lastRequestCompletion := engine.lastRequestCompletionAfter event
        evidenceWindows := engine.evidenceWindowsAfter event } := by
  cases event with
  | schedulerIoWait wait =>
    unfold schedulerWaitsAfter
    show (engine.ingestSchedulerIoWait wait).evidence = _
    unfold ingestSchedulerIoWait
    dsimp only
    split
    · split <;> rfl
    · rfl
  | blockInsert insert => rfl
  | blockIssue issue => rfl
  | blockComplete completion =>
    refine (engine.evidence_step_blockComplete completion).trans ?_
    unfold kept
    rw [show engine.projected (.blockComplete completion) = none from rfl, or_none]
    rfl
  | observedBlockCompletion completed =>
    exact engine.evidence_ingestObservedBlockCompletion completed
  | fileIo file => exact engine.evidence_ingestFileIo file
  | pipeline observation =>
    let newest := (engine.clocked observation).lastTsNs.getD 0
    exact congrArg (fun evidence : Evidence => { evidence with
      stages := (evidence.stages.take newest observation).1
      pipelineObservations := pushSome evidence.retainAllEvidence evidence.pipelineObservations
        (evidence.stages.take newest observation).2 }) (engine.evidence_clocked observation)
  | requestOrigin origin =>
    show (engine.ingestRequestOrigin origin).evidence = _
    simp only [ingestRequestOrigin, evidence_pushEdge, evidence_pushNode, evidence_observeTs,
      evidence_bumpGeneration]
    rfl
  | node node =>
    show (engine.ingestNode node).evidence = _
    simp only [ingestNode, evidence_pushNode, evidence_observeTs, evidence_bumpGeneration]
    rfl
  | edge edge => rfl

section Collections

variable (engine : AnalysisEngine) (event : StorageEvent)

theorem retainAllEvidence_step :
    (engine.step event).retainAllEvidence =
      engine.retainAllEvidence :=
  congrArg Evidence.retainAllEvidence (engine.evidence_step event)

theorem correlator_step : (engine.step event).correlator = engine.correlatorAfter event :=
  congrArg Evidence.correlator (engine.evidence_step event)

theorem completed_step :
    (engine.step event).completed =
      pushSome engine.retainAllEvidence engine.completed (engine.kept event) :=
  congrArg Evidence.completed (engine.evidence_step event)

theorem schedulerWaits_step :
    (engine.step event).schedulerWaits =
      engine.schedulerWaitsAfter event :=
  congrArg Evidence.schedulerWaits (engine.evidence_step event)

theorem fileIos_step :
    (engine.step event).fileIos =
      pushSome engine.retainAllEvidence engine.fileIos (addedFile event) :=
  congrArg Evidence.fileIos (engine.evidence_step event)

theorem pipelineObservations_step :
    (engine.step event).pipelineObservations =
      engine.observationsAfter event :=
  congrArg Evidence.pipelineObservations (engine.evidence_step event)

theorem stages_step : (engine.step event).stages = engine.stagesAfter event :=
  congrArg Evidence.stages (engine.evidence_step event)

theorem graphNodes_step :
    (engine.step event).graphNodes =
      pushSome engine.retainAllEvidence engine.graphNodes (addedNode event) :=
  congrArg Evidence.graphNodes (engine.evidence_step event)

theorem graphEdges_step :
    (engine.step event).graphEdges =
      pushSome engine.retainAllEvidence engine.graphEdges (addedEdge event) :=
  congrArg Evidence.graphEdges (engine.evidence_step event)

theorem lastRequestCompletion_step :
    (engine.step event).lastRequestCompletion =
      engine.lastRequestCompletionAfter event :=
  congrArg Evidence.lastRequestCompletion (engine.evidence_step event)

theorem evidenceWindows_step :
    (engine.step event).evidenceWindows =
      engine.evidenceWindowsAfter event :=
  congrArg Evidence.evidenceWindows (engine.evidence_step event)

end Collections

def progress (engine : AnalysisEngine) : SequentialClassifier × Option U64 :=
  (engine.classifier, engine.lastTsNs)

@[simp] theorem progress_withSummary (summary : AnalysisSummary) :
    (engine.withSummary summary).progress = engine.progress := rfl

section

variable (engine : AnalysisEngine) (io : CompletedIo)

@[simp] theorem progress_recordDepth : (engine.recordDepth io).progress = engine.progress := by
  unfold recordDepth
  split
  · rfl
  · dsimp only
    split <;> rfl

@[simp] theorem progress_recordLatency : (engine.recordLatency io).progress = engine.progress := by
  unfold recordLatency
  split <;> rfl

@[simp] theorem progress_recordBucket : (engine.recordBucket io).progress = engine.progress := by
  unfold recordBucket
  split <;> rfl

@[simp] theorem progress_recordCategory :
    (engine.recordCategory io).progress = engine.progress := rfl

@[simp] theorem progress_recordCompleted :
    (engine.recordCompleted io).progress = engine.progress := by
  simp [recordCompleted]

end

/-- The start and the completion of a request, where both can be placed on the clock. -/
def requestTimes (io : CompletedIo) : List U64 :=
  match io.startTimestamp, io.completionTimestamp with
  | some start, some finish => [start, finish]
  | _, _ => []

def observedTimes : StorageEvent → List U64
  | .schedulerIoWait _ | .edge _ => []
  | .blockInsert insert => [insert.tsNs]
  | .blockIssue issue => [issue.tsNs]
  | .blockComplete completion => [completion.tsNs]
  | .observedBlockCompletion io => requestTimes io
  | .fileIo file => [file.startTsNs, file.endTsNs]
  | .pipeline observation => observation.tsNs :: observation.endTsNs.toList
  | .requestOrigin origin => [origin.tsNs]
  | .node node => [node.startTsNs, node.endOrStart]

def newestOf (newest : Option U64) (tsNs : U64) : Option U64 :=
  some (newest.elim tsNs fun value => max value tsNs)

@[simp] theorem progress_bumpGeneration :
    engine.bumpGeneration.progress = engine.progress := rfl

theorem progress_observeTs (tsNs : U64) :
    (engine.observeTs tsNs).progress = (engine.progress.1, newestOf engine.progress.2 tsNs) := rfl

theorem progress_observeRequestTime (io : CompletedIo) :
    (engine.observeRequestTime io).progress =
      (engine.classifier, (requestTimes io).foldl newestOf engine.lastTsNs) := by
  unfold observeRequestTime requestTimes
  cases io.startTimestamp with
  | none => rfl
  | some start => cases io.completionTimestamp <;> rfl

def classifierAfter (engine : AnalysisEngine) : StorageEvent → SequentialClassifier
  | .blockIssue issue => (engine.classifier.classify issue).1
  | _ => engine.classifier

theorem progress_acceptCompleted (completed : CompletedIo) :
    (engine.acceptCompleted completed).progress = engine.progress := by
  unfold acceptCompleted
  dsimp only
  split
  · exact progress_recordCompleted (engine.rememberCompletion completed) completed
  · rfl

theorem progress_ingestObservedBlockCompletion (completed : CompletedIo) :
    (engine.ingestObservedBlockCompletion completed).progress =
      (engine.observeRequestTime completed).progress := by
  unfold ingestObservedBlockCompletion
  dsimp only
  split
  · exact progress_recordCompleted (engine.countObserved completed) completed
  · rfl

section

variable (engine : AnalysisEngine) (event : StorageEvent)

theorem progress_step :
    (engine.step event).progress =
      (engine.classifierAfter event, (observedTimes event).foldl newestOf engine.lastTsNs) := by
  cases event with
  | schedulerIoWait wait =>
    show (engine.ingestSchedulerIoWait wait).progress = _
    unfold ingestSchedulerIoWait
    dsimp only
    split
    · split <;> rfl
    · rfl
  | blockComplete completion =>
    show (engine.ingestBlockComplete completion).1.progress = _
    unfold ingestBlockComplete
    dsimp only
    split
    · rfl
    · exact progress_acceptCompleted _ _
  | observedBlockCompletion completed =>
    exact (engine.progress_ingestObservedBlockCompletion completed).trans
      (engine.progress_observeRequestTime completed)
  | pipeline observation =>
    show (engine.clocked observation).progress = _
    unfold clocked observedTimes
    dsimp only
    cases observation.endTsNs with
    | none =>
      rw [elim_none, progress_observeTs, progress_bumpGeneration]
      rfl
    | some finish =>
      rw [elim_some, progress_observeTs, progress_observeTs, progress_bumpGeneration]
      rfl
  | fileIo file =>
    show ((engine.bumpGeneration.observeTs file.startTsNs).observeTs file.endTsNs).progress = _
    rw [progress_observeTs, progress_observeTs, progress_bumpGeneration]
    rfl
  | node node =>
    show ((engine.bumpGeneration.observeTs node.startTsNs).observeTs node.endOrStart).progress = _
    rw [progress_observeTs, progress_observeTs, progress_bumpGeneration]
    rfl
  | requestOrigin origin =>
    show (engine.bumpGeneration.observeTs origin.tsNs).progress = _
    rw [progress_observeTs, progress_bumpGeneration]
    rfl
  | blockInsert _ | blockIssue _ | edge _ => rfl

theorem classifier_step : (engine.step event).classifier = engine.classifierAfter event :=
  congrArg Prod.fst (engine.progress_step event)

theorem lastTsNs_step :
    (engine.step event).lastTsNs = (observedTimes event).foldl newestOf engine.lastTsNs :=
  congrArg Prod.snd (engine.progress_step event)

theorem completionWindow_step : (engine.step event).completionWindow = engine.completionWindow :=
  congrArg Evidence.completionWindow (engine.evidence_step event)

end

end AnalysisEngine

end EbpfStudio

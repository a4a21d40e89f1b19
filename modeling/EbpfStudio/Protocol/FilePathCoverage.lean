/-
This file models the report of how many requests a file path is known for, and proves that its
counts add up.

The report is made from a whole source. Projected observations are counted as they come, and
retained requests when the source ends, each by one confidence and with at most one reason. `Covers`
adds this up. The completions without an issue are known from the counters of the engine
(`Settled`), and are added as unresolved.
-/

import EbpfStudio.Protocol.Caches
import EbpfStudio.Protocol.Totals

namespace EbpfStudio

open AnalysisEngine Run List Option

/-! ### Confidence -/

inductive FilePathConfidence where
  | exact | probable | unresolved
  deriving DecidableEq

def FileOriginView.lacksPath (origin : FileOriginView) : Bool :=
  (origin.path.bind (·.path)).all fun path => path.isEmpty

/-- Every origin needs a path and causal evidence: one that has them does not make up for
another that has not. -/
def FilePathConfidence.fromOrigins (origins : List FileOriginView) : FilePathConfidence :=
  if origins.isEmpty || origins.any fun origin =>
      origin.incomplete || origin.lacksPath || origin.confidence = .contextOnly then .unresolved
  else if origins.all fun origin => origin.confidence = .exact then .exact
  else .probable

/-! ### The report -/

/-- A number of requests and their bytes. -/
structure CoverageVolume where
  count : Nat := 0
  knownBytes : Nat := 0
  deriving DecidableEq

def CoverageVolume.observe (volume : CoverageVolume) (bytes : Nat) : CoverageVolume where
  count := volume.count + 1
  knownBytes := volume.knownBytes + bytes

/-- The counts of the report. -/
structure FilePathCoverage where
  exact : CoverageVolume := {}
  probable : CoverageVolume := {}
  unresolved : CoverageVolume := {}
  multiOrigin : CoverageVolume := {}
  unmatchedCompletions : Nat := 0
  issueEventsWithoutCompletion : Nat := 0
  noOrigin : Nat := 0
  missingPath : Nat := 0
  contextOnly : Nat := 0
  incompleteOriginSet : Nat := 0
  observationWithoutFileIdentity : Nat := 0
  deriving DecidableEq

namespace FilePathCoverage

def completionRecords (coverage : FilePathCoverage) : Nat :=
  coverage.exact.count + coverage.probable.count + coverage.unresolved.count

def knownBytes (coverage : FilePathCoverage) : Nat :=
  coverage.exact.knownBytes + coverage.probable.knownBytes + coverage.unresolved.knownBytes

def countReason (coverage : FilePathCoverage) (io : CompletedIo)
    (origins : List FileOriginView) : FilePathCoverage :=
  if io.evidence.isSome then
    { coverage with
      observationWithoutFileIdentity := coverage.observationWithoutFileIdentity + 1 }
  else if origins.isEmpty then { coverage with noOrigin := coverage.noOrigin + 1 }
  else if origins.any (·.incomplete) then
    { coverage with incompleteOriginSet := coverage.incompleteOriginSet + 1 }
  else if origins.any (·.lacksPath) then
    { coverage with missingPath := coverage.missingPath + 1 }
  else { coverage with contextOnly := coverage.contextOnly + 1 }

def observe (coverage : FilePathCoverage) (io : CompletedIo) (origins : List FileOriginView) :
    FilePathCoverage :=
  let coverage :=
    if 1 < origins.length then
      { coverage with multiOrigin := coverage.multiOrigin.observe io.issue.bytes }
    else coverage
  match FilePathConfidence.fromOrigins origins with
  | .exact => { coverage with exact := coverage.exact.observe io.issue.bytes }
  | .probable => { coverage with probable := coverage.probable.observe io.issue.bytes }
  | .unresolved =>
    countReason { coverage with unresolved := coverage.unresolved.observe io.issue.bytes }
      io origins

end FilePathCoverage

/-! ### The engine -/

/-- The engine and the counts so far. -/
structure FilePathCoverageEngine where
  engine : QueriedEngine
  coverage : FilePathCoverage := {}

def projection : StorageEvent → Option CompletedIo
  | .observedBlockCompletion io => if io.evidence.isSome then some io else none
  | _ => none

namespace FilePathCoverageEngine

def default : FilePathCoverageEngine where
  engine := { engine := { AnalysisEngine.new with retainAllEvidence := true } }

def ingest (state : FilePathCoverageEngine) (event : StorageEvent) : FilePathCoverageEngine :=
  match projection event with
  | some io => { state with coverage := state.coverage.observe io [] }
  | none => { state with engine := (state.engine.ingest event).1 }

section Finish

variable {Error : Type} (check : Nat → Except Error Unit)

/-- Classify the requests in turn. The check is asked before each of them, for the first, second
and later time, and may stop the work. -/
def observeCompleted : Nat → FilePathCoverageEngine → List CompletedIo →
    Except Error FilePathCoverageEngine
  | _, state, [] => .ok state
  | call, state, io :: rest =>
    match check call with
    | .error error => .error error
    | .ok _ =>
      let queried := state.engine.transactionFor io
      let origins := queried.2.fileOriginsFor (blockRequestNodeId io.issue.requestId)
      observeCompleted (call + 1)
        { engine := queried.1, coverage := state.coverage.observe io origins } rest

/-- The report of what was counted. -/
def report (state : FilePathCoverageEngine) : FilePathCoverage :=
  let summary := state.engine.engine.summary
  { state.coverage with
    unmatchedCompletions := summary.uncorrelatedCompletions
    unresolved := { state.coverage.unresolved with
      count := state.coverage.unresolved.count + summary.uncorrelatedCompletions }
    issueEventsWithoutCompletion := summary.issuedIos - summary.completedIos }

def finishWith (state : FilePathCoverageEngine) : Except Error FilePathCoverage :=
  (observeCompleted check 0 state state.engine.engine.completed).map report

end Finish

def finish (state : FilePathCoverageEngine) : FilePathCoverage :=
  match state.finishWith (fun _ => .ok () : Nat → Except Empty Unit) with
  | .ok coverage => coverage
  | .error impossible => nomatch impossible

end FilePathCoverageEngine

/-! ### What classified requests add up to -/

abbrev Classified := CompletedIo × List FileOriginView

def CoverageVolume.of (requests : List Classified) : CoverageVolume where
  count := requests.length
  knownBytes := (requests.map fun request => request.1.issue.bytes.val).sum

variable (requests : List Classified)

theorem CoverageVolume.of_snoc (request : Classified) :
    CoverageVolume.of (requests ++ [request]) = (of requests).observe request.1.issue.bytes := by
  simp [of, observe]

def withConfidence (confidence : FilePathConfidence) (requests : List Classified) :
    List Classified :=
  requests.filter fun request => FilePathConfidence.fromOrigins request.2 = confidence

/-- The volumes and the reasons of a report, before the unmatched completions are added. -/
structure Covers (requests : List Classified) (coverage : FilePathCoverage) : Prop where
  exact : coverage.exact = .of (withConfidence .exact requests)
  probable : coverage.probable = .of (withConfidence .probable requests)
  unresolved : coverage.unresolved = .of (withConfidence .unresolved requests)
  multiOrigin : coverage.multiOrigin = .of (requests.filter fun request => 1 < request.2.length)
  reasons : coverage.noOrigin + coverage.missingPath + coverage.contextOnly +
    coverage.incompleteOriginSet + coverage.observationWithoutFileIdentity =
      coverage.unresolved.count

theorem withConfidence_snoc (confidence : FilePathConfidence) (requests : List Classified)
    (request : Classified) :
    withConfidence confidence (requests ++ [request]) =
      if FilePathConfidence.fromOrigins request.2 = confidence then
        withConfidence confidence requests ++ [request]
      else withConfidence confidence requests := by
  simp only [withConfidence, filter_append, filter_singleton]
  split <;> simp [*]

theorem countReason_spec (coverage : FilePathCoverage) (io : CompletedIo)
    (origins : List FileOriginView) :
    let next := coverage.countReason io origins
    next.exact = coverage.exact ∧ next.probable = coverage.probable ∧
      next.unresolved = coverage.unresolved ∧ next.multiOrigin = coverage.multiOrigin ∧
      next.noOrigin + next.missingPath + next.contextOnly + next.incompleteOriginSet +
          next.observationWithoutFileIdentity =
        coverage.noOrigin + coverage.missingPath + coverage.contextOnly +
          coverage.incompleteOriginSet + coverage.observationWithoutFileIdentity + 1 := by
  unfold FilePathCoverage.countReason
  split_ifs <;> refine ⟨rfl, rfl, rfl, rfl, ?_⟩ <;> dsimp only <;> omega

theorem Covers.observe {requests : List Classified} {coverage : FilePathCoverage}
    (covers : Covers requests coverage) (request : Classified) :
    Covers (requests ++ [request]) (coverage.observe request.1 request.2) := by
  obtain ⟨exact, probable, unresolved, multiOrigin, reasons⟩ := covers
  -- the overlap with several origins is counted apart from the confidence
  have several : (if 1 < request.2.length then
      { coverage with multiOrigin := coverage.multiOrigin.observe request.1.issue.bytes }
      else coverage) =
      { coverage with
        multiOrigin := .of ((requests ++ [request]).filter fun entry => 1 < entry.2.length) } := by
    rw [filter_append, filter_singleton]
    by_cases more : 1 < request.2.length
    · simp [more, CoverageVolume.of_snoc, multiOrigin]
    · simp [more, ← multiOrigin]
  unfold FilePathCoverage.observe
  rw [several]
  cases confidence : FilePathConfidence.fromOrigins request.2 with
  | exact =>
    refine ⟨?_, ?_, ?_, rfl, reasons⟩ <;>
      simp [withConfidence_snoc, confidence, CoverageVolume.of_snoc, exact, probable, unresolved]
  | probable =>
    refine ⟨?_, ?_, ?_, rfl, reasons⟩ <;>
      simp [withConfidence_snoc, confidence, CoverageVolume.of_snoc, exact, probable, unresolved]
  | unresolved =>
    obtain ⟨sameExact, sameProbable, sameUnresolved, sameMulti, oneReason⟩ := countReason_spec
      { coverage with
        multiOrigin := .of ((requests ++ [request]).filter fun entry => 1 < entry.2.length)
        unresolved := coverage.unresolved.observe request.1.issue.bytes } request.1 request.2
    refine ⟨sameExact.trans ?_, sameProbable.trans ?_, sameUnresolved.trans ?_, sameMulti,
      oneReason.trans ?_⟩
    · simp [withConfidence_snoc, confidence, exact]
    · simp [withConfidence_snoc, confidence, probable]
    · simp [withConfidence_snoc, confidence, CoverageVolume.of_snoc, unresolved]
    · rw [sameUnresolved]
      exact congrArg (· + 1) reasons

def observeAll (coverage : FilePathCoverage) (requests : List Classified) : FilePathCoverage :=
  requests.foldl (fun coverage request => coverage.observe request.1 request.2) coverage

theorem covers_observeAll : Covers requests (observeAll {} requests) :=
  run_induction Covers ⟨rfl, rfl, rfl, rfl, rfl⟩ (fun _ request covers => covers.observe request)
    requests

theorem perm_withConfidence :
    (withConfidence .exact requests ++ withConfidence .probable requests ++
      withConfidence .unresolved requests).Perm requests := by
  induction requests with
  | nil => exact .nil
  | cons request rest hypothesis =>
    have one := hypothesis.cons request
    simp only [withConfidence, filter_cons] at one ⊢
    cases FilePathConfidence.fromOrigins request.2 with
    | exact => simpa using one
    | probable => simpa using (perm_middle.append_right _).trans one
    | unresolved => simpa using perm_middle.trans one

section Volumes

variable {requests : List Classified} {coverage : FilePathCoverage}

theorem Covers.completionRecords (covers : Covers requests coverage) :
    coverage.completionRecords = requests.length := by
  have lengths := (perm_withConfidence requests).length_eq
  rw [length_append, length_append] at lengths
  rw [FilePathCoverage.completionRecords, covers.exact, covers.probable, covers.unresolved]
  exact lengths

theorem Covers.knownBytes (covers : Covers requests coverage) :
    coverage.knownBytes = (requests.map fun request => request.1.issue.bytes.val).sum := by
  have sums := ((perm_withConfidence requests).map fun request => request.1.issue.bytes.val).sum_nat
  rw [map_append, map_append, sum_append, sum_append] at sums
  rw [FilePathCoverage.knownBytes, covers.exact, covers.probable, covers.unresolved]
  exact sums

end Volumes

/-! ### The requests of a run -/

namespace FilePathCoverageEngine

/-- The retained requests with their origins, as the end of the source finds them. -/
def classify : QueriedEngine → List CompletedIo → List Classified
  | _, [] => []
  | state, io :: rest =>
    let queried := state.transactionFor io
    (io, queried.2.fileOriginsFor (blockRequestNodeId io.issue.requestId)) ::
      classify queried.1 rest

theorem map_fst_classify (state : QueriedEngine) (requests : List CompletedIo) :
    (classify state requests).map Prod.fst = requests := by
  induction requests generalizing state with
  | nil => rfl
  | cons io rest hypothesis =>
    rw [classify, map_cons, hypothesis]

def reportOf (state : FilePathCoverageEngine) (requests : List Classified) : FilePathCoverage :=
  report { state with coverage := observeAll state.coverage requests }

variable {Error : Type}

theorem observeCompleted_map_report (check : Nat → Except Error Unit) (call : Nat)
    (state : FilePathCoverageEngine) (requests : List CompletedIo) :
    (∀ result, (observeCompleted check call state requests).map report = .ok result →
        result = state.reportOf (classify state.engine requests)) ∧
      ((∀ number, check number = .ok ()) →
        (observeCompleted check call state requests).map report =
          .ok (state.reportOf (classify state.engine requests))) := by
  induction requests generalizing call state with
  | nil => exact ⟨fun result finished => (Except.ok.inj finished).symm, fun _ => rfl⟩
  | cons io rest hypothesis =>
    have sameEngine := state.engine.engine_transactionFor io
    have later := hypothesis (call + 1)
      { engine := (state.engine.transactionFor io).1
        coverage := state.coverage.observe io ((state.engine.transactionFor io).2.fileOriginsFor
          (blockRequestNodeId io.issue.requestId)) }
    have same : state.reportOf (classify state.engine (io :: rest)) = reportOf
        { engine := (state.engine.transactionFor io).1
          coverage := state.coverage.observe io ((state.engine.transactionFor io).2.fileOriginsFor
            (blockRequestNodeId io.issue.requestId)) }
        (classify (state.engine.transactionFor io).1 rest) := by
      simp only [reportOf, report, sameEngine]
      rfl
    rw [same]
    refine ⟨fun result finished => ?_, fun passes => ?_⟩
    · rw [observeCompleted] at finished
      cases asked : check call with
      | error error =>
        rw [asked] at finished
        cases finished
      | ok _ =>
        rw [asked] at finished
        exact later.1 result finished
    · rw [observeCompleted, passes call]
      exact later.2 passes

theorem finish_eq (state : FilePathCoverageEngine) :
    state.finish = state.reportOf (classify state.engine state.engine.engine.completed) := by
  have finished := (observeCompleted_map_report (fun _ => .ok () : Nat → Except Empty Unit) 0 state
    state.engine.engine.completed).2 fun _ => rfl
  simp only [finish, finishWith, finished]

theorem finishWith_eq {check : Nat → Except Error Unit} {state : FilePathCoverageEngine}
    {result : FilePathCoverage} (finished : state.finishWith check = .ok result) :
    result = state.finish := by
  rw [finish_eq]
  exact (observeCompleted_map_report check 0 state state.engine.engine.completed).1 result finished

def ownEvents (events : List StorageEvent) : List StorageEvent :=
  events.filter fun event => (projection event).isNone

theorem run_ingest (events : List StorageEvent) :
    (run ingest default events).engine.engine =
        run step default.engine.engine (ownEvents events) ∧
      (run ingest default events).coverage =
        observeAll {} ((events.filterMap projection).map fun io => (io, [])) := by
  refine run_lockstep_filter (fun history (state : FilePathCoverageEngine) engine =>
    state.engine.engine = engine ∧
      state.coverage = observeAll {} ((history.filterMap projection).map fun io => (io, [])))
    ⟨rfl, rfl⟩ (fun history event own ⟨sameEngine, sameCoverage⟩ => ?_)
    (fun history event projected ⟨sameEngine, sameCoverage⟩ => ?_) events
  · have reaches : projection event = none := isNone_iff_eq_none.mp own
    rw [ingest, reaches, filterMap_snoc, reaches]
    refine ⟨?_, by simpa using sameCoverage⟩
    rw [← sameEngine]
    rfl
  · obtain ⟨io, carried⟩ : ∃ io, projection event = some io :=
      isSome_iff_exists.mp (by simpa using projected)
    rw [ingest, carried, filterMap_snoc, carried]
    refine ⟨sameEngine, ?_⟩
    rw [sameCoverage]
    simp [observeAll]

end FilePathCoverageEngine

/-! ### Completions and issues -/

def isCompletion : StorageEvent → Bool
  | .blockComplete _ | .observedBlockCompletion _ => true
  | _ => false

theorem pushSome_true {Record : Type} (values : List Record) (value : Option Record) :
    pushSome true values value = values ++ value.toList := by
  cases value with
  | none => exact (append_nil _).symm
  | some value => rfl

section Step

variable (engine : AnalysisEngine) (event : StorageEvent)

theorem issued_step :
    (engine.step event).summary.issuedIos = engine.summary.issuedIos + issues event := by
  have totals := congrArg Totals.issued (engine.totals_step event)
  refine totals.trans ?_
  cases engine.kept event <;> rfl

theorem uncorrelated_step :
    (engine.step event).summary.uncorrelatedCompletions =
      engine.summary.uncorrelatedCompletions + (engine.unanswered event).toNat := by
  have totals := congrArg Totals.uncorrelated (engine.totals_step event)
  refine totals.trans ?_
  cases engine.kept event <;> rfl

variable (unwindowed : engine.completionWindow = none)

include unwindowed

theorem kept_add_unanswered :
    (engine.kept event).toList.length + (engine.unanswered event).toNat =
      (isCompletion event).toNat := by
  cases event with
  | blockComplete completion =>
    simp only [kept, accepted, answered, projected, unanswered, unwindowed, inWindow, isCompletion]
    cases (engine.correlator.onComplete completion).2 <;> rfl
  | observedBlockCompletion io =>
    simp only [kept, accepted, answered, projected, unanswered, unwindowed, placedIn, isCompletion]
    rfl
  | _ => rfl

theorem kept_add_pending (own : projection event = none) :
    (engine.kept event).toList.length + (engine.step event).correlator.pending.size ≤
      engine.correlator.pending.size + issues event := by
  rw [correlator_step]
  cases event with
  | blockInsert insert =>
    exact (zero_add _).le.trans (engine.correlator.size_pending_onInsert_le insert)
  | blockIssue issue =>
    exact (zero_add _).le.trans (engine.correlator.size_pending_onIssueClassified_le issue _)
  | blockComplete completion =>
    have taken := engine.correlator.size_pending_onComplete_le completion
    have added : (engine.kept (.blockComplete completion)).toList.length =
        (engine.correlator.onComplete completion).2.isSome.toNat := by
      simp only [kept, accepted, answered, projected, unwindowed, inWindow]
      cases (engine.correlator.onComplete completion).2 <;> rfl
    rw [added, add_comm]
    exact taken
  | observedBlockCompletion io =>
    have bare : io.evidence = none := by
      cases evidence : io.evidence with
      | none => rfl
      | some known => simp [projection, evidence] at own
    have issued : io.issueTimestamp.isSome = true := by
      simp [CompletedIo.issueTimestamp, CompletedIo.completionTimestamp, bare]
    simp only [kept, accepted, answered, projected, unwindowed, placedIn, issues, issued,
      correlatorAfter]
    exact (add_comm _ _).le
  | _ => exact (zero_add _).le

end Step

/-- Every completion is counted once: as a completed request, or as one that answers no issue. The
counters of the source are words, and below `2 ^ 64` events neither of them wraps. -/
theorem completions_counted_once (events : List StorageEvent) (few : events.length < 2 ^ 64) :
    let summary := (run step AnalysisEngine.new events).summary
    summary.completedIos + summary.uncorrelatedCompletions = events.countP isCompletion ∧
      summary.completedIos < 2 ^ 64 ∧ summary.uncorrelatedCompletions < 2 ^ 64 := by
  intro summary
  have counted : summary.completedIos + summary.uncorrelatedCompletions =
      events.countP isCompletion := by
    refine (run_induction (fun history (engine : AnalysisEngine) =>
      engine.completionWindow = none ∧
        engine.totals.completed + engine.totals.uncorrelated = history.countP isCompletion)
      ⟨rfl, rfl⟩ ?_ events).2
    rintro history event ⟨unwindowed, counts⟩
    have added := kept_add_unanswered _ event unwindowed
    have last : [event].countP isCompletion = (isCompletion event).toNat := by
      rw [countP_singleton]
      cases isCompletion event <;> rfl
    refine ⟨(completionWindow_step _ _).trans unwindowed, ?_⟩
    rw [totals_step, countP_append, last, ← added, ← counts]
    cases (run step AnalysisEngine.new history).kept event <;>
      simp only [elim_none, elim_some, AnalysisEngine.counted, Totals.record, toList_none,
        toList_some, length_nil, length_singleton] <;> omega
  have most : events.countP isCompletion < 2 ^ 64 := countP_le_length.trans_lt few
  exact ⟨counted, by omega, by omega⟩

/-- A read that completes twice: the second completion answers no issue. -/
theorem completions_counted_once_twice :
    let events := [StorageEvent.blockIssue (readIssue 1000 7),
      .blockComplete (readComplete 2000 7), .blockComplete (readComplete 3000 7)]
    let summary := (run step AnalysisEngine.new events).summary
    summary.completedIos + summary.uncorrelatedCompletions = 2 ∧ summary.completedIos = 1 :=
  ⟨(completions_counted_once _ (by decide)).1, by decide +kernel⟩

/-- An engine that evicts nothing and has no window accounts for every completion and has
counted an issue for every request. -/
structure Settled (start : AnalysisEngine) (history : List StorageEvent)
    (engine : AnalysisEngine) : Prop where
  retains : engine.retainAllEvidence = true
  unwindowed : engine.completionWindow = none
  completed : engine.completed = start.recorded history
  completions : (start.recorded history).length + engine.summary.uncorrelatedCompletions =
    history.countP isCompletion
  issues : (start.recorded history).length + engine.correlator.pending.size ≤
    engine.summary.issuedIos

theorem Settled.step {start : AnalysisEngine} {history : List StorageEvent}
    (settled : Settled start history (run step start history)) {event : StorageEvent}
    (own : projection event = none) :
    Settled start (history ++ [event]) ((run step start history).step event) := by
  obtain ⟨retains, unwindowed, completed, completions, issues⟩ := settled
  have added := kept_add_unanswered _ event unwindowed
  have pending := kept_add_pending _ event unwindowed own
  have records : start.recorded (history ++ [event]) = start.recorded history ++
      ((run AnalysisEngine.step start history).kept event).toList := collect_snoc ..
  refine ⟨(retainAllEvidence_step _ _).trans retains,
    (completionWindow_step _ _).trans unwindowed, ?_, ?_, ?_⟩
  · rw [completed_step, retains, pushSome_true, records, completed]
  · have last : [event].countP isCompletion = (isCompletion event).toNat := by
      rw [countP_singleton]
      cases isCompletion event <;> rfl
    rw [uncorrelated_step, records, length_append, countP_append, last]
    omega
  · rw [issued_step, records, length_append]
    omega

namespace FilePathCoverageEngine

variable (events : List StorageEvent)

theorem settled_run :
    Settled default.engine.engine (ownEvents events)
      (run step default.engine.engine (ownEvents events)) := by
  have meets : StepsMeet (fun _ event => projection event = none) (ownEvents events) := by
    intro history event rest split
    have member : event ∈ ownEvents events := by simp [split]
    exact isNone_iff_eq_none.mp (mem_filter.mp member).2
  exact run_induction_of_stepsMeet (Settled default.engine.engine)
    ⟨rfl, rfl, rfl, rfl, Nat.zero_le _⟩ (fun _ _ own settled => settled.step own) _ meets

theorem countP_isCompletion :
    events.countP isCompletion =
      (events.filterMap projection).length + (ownEvents events).countP isCompletion := by
  induction events with
  | nil => rfl
  | cons event rest hypothesis =>
    rw [ownEvents] at hypothesis ⊢
    cases carried : projection event with
    | none =>
      rw [filterMap_cons_none carried, filter_cons_of_pos (by simp [carried]),
        countP_cons, countP_cons, hypothesis]
      omega
    | some io =>
      have completes : isCompletion event = true := by
        cases event with
        | observedBlockCompletion other => rfl
        | _ => cases carried
      rw [filterMap_cons_some carried, filter_cons_of_neg (by simp [carried]),
        countP_cons_of_pos completes, hypothesis, length_cons]
      omega

theorem accounts_run_default :
    Accounts (default.engine.engine.recorded events)
      (run step default.engine.engine events).totals := by
  have empty : Accounts [] default.engine.engine.totals :=
    ⟨rfl, rfl, rfl, rfl, rfl, rfl, rfl, rfl, rfl⟩
  exact accounts_run empty events

/-- The requests of a source with the origins that the report classifies them by: the projected
observations, which have none, and the retained requests. -/
def matched (events : List StorageEvent) : List Classified :=
  (events.filterMap projection).map (fun io => (io, [])) ++
    classify (run ingest default events).engine
      (run ingest default events).engine.engine.completed

theorem map_fst_matched :
    (matched events).map Prod.fst =
      events.filterMap projection ++ default.engine.engine.recorded (ownEvents events) := by
  rw [matched, List.map_append, map_fst_classify, (run_ingest events).1,
    (settled_run events).completed, List.map_map]
  exact congrArg (· ++ _) (List.map_id _)

def closed (events : List StorageEvent) : FilePathCoverageEngine :=
  { run ingest default events with coverage := observeAll {} (matched events) }

theorem finish_run :
    (run ingest default events).finish = (closed events).report := by
  rw [finish_eq, reportOf, (run_ingest events).2]
  simp [closed, matched, observeAll, foldl_append]

theorem covers_closed :
    Covers (matched events) (closed events).coverage :=
  covers_observeAll (matched events)

end FilePathCoverageEngine

open FilePathCoverageEngine

/-- The report of a source accounts for its completions. It classifies the requests that were
matched, each by one confidence, and adds the other completions to the unresolved ones. No
completed request lacks an issue. -/
theorem coverage_adds_up (events : List StorageEvent) :
    let state := run ingest default events
    let report := state.finish
    let summary := state.engine.engine.summary
    (∀ (Error : Type) (check : Nat → Except Error Unit) (result : FilePathCoverage),
        state.finishWith check = .ok result → result = report) ∧
      (matched events).map Prod.fst =
        events.filterMap projection ++ default.engine.engine.recorded (ownEvents events) ∧
      report.completionRecords = events.countP isCompletion ∧
      report.exact = .of (withConfidence .exact (matched events)) ∧
      report.probable = .of (withConfidence .probable (matched events)) ∧
      report.unresolved.count =
        (withConfidence .unresolved (matched events)).length + report.unmatchedCompletions ∧
      report.exact.count + report.probable.count +
          (withConfidence .unresolved (matched events)).length = (matched events).length ∧
      report.noOrigin + report.missingPath + report.contextOnly + report.incompleteOriginSet +
          report.observationWithoutFileIdentity + report.unmatchedCompletions =
        report.unresolved.count ∧
      report.knownBytes =
        ((matched events).map fun request => request.1.issue.bytes.val).sum ∧
      summary.completedIos ≤ summary.issuedIos ∧
      report.issueEventsWithoutCompletion + summary.completedIos = summary.issuedIos := by
  intro state report summary
  have sameEngine : state.engine.engine = run step default.engine.engine (ownEvents events) :=
    (run_ingest events).1
  have settled : Settled default.engine.engine (ownEvents events) state.engine.engine :=
    sameEngine ▸ settled_run events
  have completed : summary.completedIos =
      (default.engine.engine.recorded (ownEvents events)).length := by
    show state.engine.engine.summary.completedIos = _
    rw [sameEngine]
    exact (accounts_run_default (ownEvents events)).completed
  have issued : summary.completedIos ≤ summary.issuedIos :=
    completed.le.trans ((Nat.le_add_right _ _).trans settled.issues)
  have covers := covers_closed events
  have records : (closed events).report.completionRecords =
      (matched events).length + (closed events).report.unmatchedCompletions := by
    rw [← covers.completionRecords]
    exact (add_assoc _ _ _).symm
  have lengths := (perm_withConfidence (matched events)).length_eq
  rw [length_append, length_append] at lengths
  have finished : report = (closed events).report := finish_run events
  refine ⟨fun Error check result => finishWith_eq, map_fst_matched events, ?_⟩
  rw [finished]
  refine ⟨?_, covers.exact, covers.probable,
    congrArg (· + _) (congrArg CoverageVolume.count covers.unresolved), ?_,
    congrArg (· + _) covers.reasons, covers.knownBytes, issued, Nat.sub_add_cancel issued⟩
  · -- the completions that are not projected are either recorded or unmatched
    have length := congrArg length (map_fst_matched events)
    rw [length_map, length_append] at length
    rw [records, length, countP_isCompletion, ← settled.completions]
    exact add_assoc _ _ _
  · rw [show (closed events).report.exact = _ from covers.exact,
      show (closed events).report.probable = _ from covers.probable]
    exact lengths

end EbpfStudio

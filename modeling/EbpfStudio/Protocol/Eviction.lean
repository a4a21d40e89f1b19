/-
This file compares an engine that evicts its oldest records with one that retains all.

Both engines take the same events, and what the first one holds is always a suffix of what the
second one holds (`EvictedCopy`). So what was lost is known exactly, and the views of a request
agree if it reads nothing of that. The file records need more care: a request gets an origin from
them only if one record alone is a candidate, so a lost candidate does no harm beside two retained
ones, and none where the engine that evicts has nothing to report. It does harm beside exactly one
that is retained, and this is how an eviction can make up an attribution.
-/

import EbpfStudio.Protocol.Lockstep
import EbpfStudio.Protocol.Reading
import EbpfStudio.Protocol.Retention

namespace EbpfStudio

open Run List QueriedEngine

def lostFrom {Record : Type} (all kept : List Record) : List Record :=
  all.take (all.length - kept.length)

variable {Record : Type}

theorem lostFrom_append (lost kept : List Record) : lostFrom (lost ++ kept) kept = lost := by
  unfold lostFrom
  rw [length_append, Nat.add_sub_cancel, take_left]

theorem lostFrom_append_of_suffix {all kept : List Record} (suffix : kept <:+ all) :
    lostFrom all kept ++ kept = all := by
  obtain ⟨lost, rfl⟩ := suffix
  rw [lostFrom_append]

theorem filter_of_suffix {all kept : List Record} (suffix : kept <:+ all) {keep : Record → Bool}
    (unread : ∀ record ∈ lostFrom all kept, keep record = false) :
    all.filter keep = kept.filter keep := by
  have front : (lostFrom all kept).filter keep = [] :=
    filter_eq_nil_iff.mpr fun record member => by rw [unread record member]; decide
  conv_lhs => rw [← lostFrom_append_of_suffix suffix]
  rw [filter_append, front, nil_append]

namespace AnalysisEngine

def evicted {Record : Type} (retainAll : Bool) (values : List Record) : List Record :=
  if !retainAll && values.length = maxAnalysisSamples then values.take (maxAnalysisSamples / 10)
  else []

variable {Record : Type}

theorem evicted_append_evict (retainAll : Bool) (values : List Record) :
    evicted retainAll values ++ evict retainAll values = values := by
  unfold evicted evict
  split
  · exact take_append_drop _ _
  · rfl

section

variable {all kept : List Record} (suffix : kept <:+ all) (retainAll : Bool)

include suffix

theorem lostFrom_boundedPush (value : Record) :
    lostFrom (boundedPush true all value) (boundedPush retainAll kept value) =
      lostFrom all kept ++ evicted retainAll kept := by
  have whole : boundedPush true all value =
      (lostFrom all kept ++ evicted retainAll kept) ++ boundedPush retainAll kept value := by
    show all ++ [value] = _
    unfold boundedPush
    rw [append_assoc, ← append_assoc (evicted retainAll kept), evicted_append_evict,
      ← append_assoc, lostFrom_append_of_suffix suffix]
  rw [whole, lostFrom_append]

theorem suffix_boundedPush (value : Record) :
    boundedPush retainAll kept value <:+ boundedPush true all value := by
  have front : evict retainAll kept <:+ all :=
    List.IsSuffix.trans ⟨_, evicted_append_evict retainAll kept⟩ suffix
  obtain ⟨lost, rfl⟩ := front
  exact ⟨lost, (append_assoc _ _ _).symm⟩

theorem suffix_pushSome (value : Option Record) :
    pushSome retainAll kept value <:+ pushSome true all value := by
  cases value with
  | none => exact suffix
  | some value => exact suffix_boundedPush suffix retainAll value

end

/-- An engine that may evict beside one that retains all evidence, after the same events. -/
structure EvictedCopy (evicting whole : AnalysisEngine) : Prop where
  retaining : whole.retainAllEvidence = true
  completionWindow : evicting.completionWindow = whole.completionWindow
  requests : evicting.SameRequests whole
  stages : evicting.SameStages whole
  completed : evicting.completed <:+ whole.completed
  files : evicting.fileIos <:+ whole.fileIos
  observations : evicting.pipelineObservations <:+ whole.pipelineObservations
  nodes : evicting.graphNodes <:+ whole.graphNodes
  edges : evicting.graphEdges <:+ whole.graphEdges
  windows : ∀ key, (∀ io ∈ lostFrom whole.completed evicting.completed,
      requestCacheKey io ≠ key) →
    evicting.evidenceWindows.lookup key = whole.evidenceWindows.lookup key

section Step

variable {evicting whole : AnalysisEngine}

section

variable (copy : EvictedCopy evicting whole) (event : StorageEvent)

include copy

theorem EvictedCopy.accepted_eq : evicting.accepted event = whole.accepted event := by
  unfold accepted
  rw [copy.requests.answered_eq, copy.completionWindow]

theorem EvictedCopy.kept_eq : evicting.kept event = whole.kept event := by
  unfold kept projected
  rw [copy.accepted_eq, copy.completionWindow]

theorem EvictedCopy.observations_step :
    (evicting.step event).pipelineObservations <:+ (whole.step event).pipelineObservations := by
  rw [pipelineObservations_step, pipelineObservations_step]
  unfold observationsAfter
  cases event with
  | fileIo file =>
    dsimp only
    split
    · obtain ⟨lost, same⟩ := copy.observations
      exact ⟨lost, by rw [← same, append_assoc]⟩
    · exact copy.observations
  | pipeline observation =>
    dsimp only
    rw [copy.retaining, copy.stages.taken_eq]
    exact suffix_pushSome copy.observations _ _
  | _ => exact copy.observations

theorem EvictedCopy.lost_step :
    lostFrom (whole.step event).completed (evicting.step event).completed =
      lostFrom whole.completed evicting.completed ++ (whole.kept event).elim [] fun _ =>
        evicted evicting.retainAllEvidence evicting.completed := by
  rw [completed_step, completed_step, copy.retaining, copy.kept_eq]
  cases whole.kept event with
  | none => exact (append_nil _).symm
  | some io => exact lostFrom_boundedPush copy.completed _ io

theorem EvictedCopy.windows_step {key : RequestCacheKey}
    (unshared : ∀ io ∈ lostFrom (whole.step event).completed (evicting.step event).completed,
      requestCacheKey io ≠ key) :
    (evicting.step event).evidenceWindows.lookup key =
      (whole.step event).evidenceWindows.lookup key := by
  rw [copy.lost_step] at unshared
  have before := copy.windows key fun io member =>
    unshared io (mem_append_left _ member)
  rw [evidenceWindows_step, evidenceWindows_step]
  unfold evidenceWindowsAfter
  rw [copy.accepted_eq]
  cases accepted : whole.accepted event with
  | none => exact before
  | some io =>
    have keeps : whole.kept event = some io := by
      unfold kept
      rw [accepted]
      rfl
    rw [keeps] at unshared
    have gone : ∀ old ∈ evicted evicting.retainAllEvidence evicting.completed,
        requestCacheKey old ≠ key := fun old member =>
      unshared old (mem_append_right _ member)
    rw [Option.elim_some, Option.elim_some, copy.retaining, copy.requests.lastCompletion]
    refine (lookup_foldl_erase gone).trans ?_
    refine (Table.lookup_insert_eq _ _ _ _).trans ?_
    rw [before]
    exact (Table.lookup_insert_eq _ _ _ _).symm

theorem EvictedCopy.step : EvictedCopy (evicting.step event) (whole.step event) where
  retaining := (whole.retainAllEvidence_step event).trans copy.retaining
  completionWindow := by
    rw [completionWindow_step, completionWindow_step, copy.completionWindow]
  requests := copy.requests.step event
  stages := copy.stages.step event
  completed := by
    rw [completed_step, completed_step, copy.retaining, copy.kept_eq]
    exact suffix_pushSome copy.completed _ _
  files := by
    rw [fileIos_step, fileIos_step, copy.retaining]
    exact suffix_pushSome copy.files _ _
  observations := copy.observations_step event
  nodes := by
    rw [graphNodes_step, graphNodes_step, copy.retaining]
    exact suffix_pushSome copy.nodes _ _
  edges := by
    rw [graphEdges_step, graphEdges_step, copy.retaining]
    exact suffix_pushSome copy.edges _ _
  windows _ unshared := copy.windows_step event unshared

end

end Step

/-- The candidates for the origin of a request that the first engine lost. -/
def lostCandidates (io : CompletedIo) (evicting whole : AnalysisEngine) : List FileIo :=
  (lostFrom whole.fileIos evicting.fileIos).filter
    (·.candidateFor io (nodesOf io.issue.requestId evicting.graphNodes))

/-- What the first engine lost changes no origin of a request: no candidate was lost beside the only
one that is retained, nor the only one of a request for which a file was recorded, and no other
lost record is read by the views of the request. -/
structure LossHarmless (io : CompletedIo) (evicting whole : AnalysisEngine) : Prop where
  unique : (evicting.candidates io).length = 1 → lostCandidates io evicting whole = []
  only : evicting.candidates io = [] → (lostCandidates io evicting whole).length = 1 →
    ∀ node ∈ nodesOf io.issue.requestId evicting.graphNodes, node.file = none
  paths : ∀ file ∈ lostFrom whole.fileIos evicting.fileIos,
    file.namesFor io (nodesOf io.issue.requestId whole.graphNodes) = false
  observations : ∀ value ∈ lostFrom whole.pipelineObservations evicting.pipelineObservations,
    value.selectedFor io = false
  nodes : ∀ node ∈ lostFrom whole.graphNodes evicting.graphNodes,
    node.transactionId ≠ some io.issue.requestId
  edges : ∀ edge ∈ lostFrom whole.graphEdges evicting.graphEdges,
    edge.transactionId ≠ some io.issue.requestId
  requests : ∀ request ∈ lostFrom whole.completed evicting.completed,
    requestCacheKey request ≠ requestCacheKey io

theorem sole_append {lost kept : List Record} (unique : kept.length = 1 → lost = [])
    (several : kept = [] → lost.length ≠ 1) : sole (lost ++ kept) = sole kept := by
  by_cases single : kept.length = 1
  · rw [unique single, nil_append]
  · rw [sole_of_length_ne single]
    refine sole_of_length_ne fun total => ?_
    rw [length_append] at total
    have empty : kept = [] := length_eq_zero_iff.mp (by omega)
    exact several empty (by rw [empty, length_nil] at total; omega)

section Harmless

variable {evicting whole : AnalysisEngine} {io : CompletedIo} (copy : EvictedCopy evicting whole)
  (harmless : LossHarmless io evicting whole)
include copy harmless

theorem EvictedCopy.nodesOf_eq : nodesOf io.issue.requestId whole.graphNodes =
    nodesOf io.issue.requestId evicting.graphNodes :=
  filter_of_suffix copy.nodes fun node member => decide_eq_false (harmless.nodes node member)

theorem EvictedCopy.candidates_eq :
    whole.candidates io = lostCandidates io evicting whole ++ evicting.candidates io := by
  unfold candidates lostCandidates
  rw [copy.nodesOf_eq harmless, ← filter_append, lostFrom_append_of_suffix copy.files]

theorem EvictedCopy.readAlike
    (several : evicting.candidates io = [] → (lostCandidates io evicting whole).length ≠ 1) :
    ReadAlike io evicting whole := by
  have nodes := copy.nodesOf_eq harmless
  have edges : edgesOf io.issue.requestId whole.graphEdges =
      edgesOf io.issue.requestId evicting.graphEdges :=
    filter_of_suffix copy.edges fun edge member => decide_eq_false (harmless.edges edge member)
  refine ⟨?_, ?_, ?_, nodes.symm, edges.symm, copy.windows _ harmless.requests⟩
  · rw [copy.candidates_eq harmless, sole_append harmless.unique several]
  · rw [← nodes]
    exact (filter_of_suffix copy.files harmless.paths).symm
  · exact (filter_of_suffix copy.observations harmless.observations).symm

end Harmless

/-- The origins that an engine reports for a request. -/
def originsFor (engine : AnalysisEngine) (io : CompletedIo) : List FileOriginView :=
  (({ engine := engine } : QueriedEngine).transactionFor io).2.fileOriginsFor
    (blockRequestNodeId io.issue.requestId)

theorem ReadAlike.origins {io : CompletedIo} {engine other : AnalysisEngine}
    (alike : ReadAlike io engine other) : engine.originsFor io = other.originsFor io := by
  unfold originsFor
  rw [transactionFor_of_empty, transactionFor_of_empty]
  exact congrArg (IoTransactionGraph.fileOriginsFor · _) alike.views.1

/-- Without a candidate and without a recorded file there is nothing to report. -/
theorem originsFor_eq_nil {engine : AnalysisEngine} {io : CompletedIo}
    (without : engine.candidates io = [])
    (unrecorded : ∀ node ∈ nodesOf io.issue.requestId engine.graphNodes, node.file = none) :
    engine.originsFor io = [] := by
  refine eq_nil_iff_forall_not_mem.mpr fun origin member => ?_
  unfold originsFor at member
  rw [transactionFor_of_empty] at member
  rcases origin_of_mem_freshTransaction member with ⟨node, listed, -, identity⟩ | ⟨file, only, -⟩
  · rw [unrecorded node listed] at identity
    cases identity
  · rw [without] at only
    cases only

end AnalysisEngine

def readInode (inode : U64) : FileIo :=
  { readFile 900 1500 with fileIdentity := some ⟨8, 0, inode, none, none⟩ }

namespace AnalysisEngine

section

variable {engine : AnalysisEngine} {file : FileIo} (backwards : ¬ file.startTsNs ≤ file.endTsNs)
  (count : Nat)
  (room : engine.retainAllEvidence = true ∨ engine.fileIos.length + count ≤ maxAnalysisSamples)

include backwards room

theorem evidence_run_replicate :
    (run step engine (List.replicate count (.fileIo file))).evidence =
      { engine.evidence with fileIos := engine.fileIos ++ List.replicate count file } := by
  induction count with
  | zero =>
    rw [replicate_zero, replicate_zero, append_nil]
    rfl
  | succ count hypothesis =>
    have before := hypothesis (room.imp_right Nat.le_of_succ_le)
    rw [replicate_succ', run_snoc]
    refine (evidence_ingestFileIo _ file).trans ?_
    have files : (run step engine (replicate count (.fileIo file))).fileIos =
        engine.fileIos ++ replicate count file := congrArg Evidence.fileIos before
    have retaining : (run step engine (replicate count (.fileIo file))).retainAllEvidence =
        engine.retainAllEvidence := congrArg Evidence.retainAllEvidence before
    have pushed : boundedPush engine.retainAllEvidence
        (engine.fileIos ++ replicate count file) file =
          engine.fileIos ++ replicate (count + 1) file := by
      have kept : evict engine.retainAllEvidence (engine.fileIos ++ replicate count file) =
          engine.fileIos ++ replicate count file := by
        refine if_neg fun full => ?_
        rw [Bool.and_eq_true, Bool.not_eq_true', decide_eq_true_eq, length_append,
          length_replicate] at full
        rcases room with all | free
        · rw [all] at full
          exact absurd full.1 (by decide)
        · omega
      rw [boundedPush, kept, append_assoc, replicate_succ']
    rw [if_neg backwards, files, retaining, pushed]
    exact congrArg (fun evidence : Evidence => { evidence with
      fileIos := engine.fileIos ++ replicate (count + 1) file }) before

theorem evidence_run_crowd (last : FileIo) :
    (run step engine (List.replicate count (.fileIo file) ++ [.fileIo last])).evidence =
      { (engine.step (.fileIo last)).evidence with
        fileIos := boundedPush engine.retainAllEvidence
          (engine.fileIos ++ replicate count file) last } := by
  rw [run_snoc]
  refine (evidence_ingestFileIo _ last).trans ?_
  have alone := engine.evidence_ingestFileIo last
  refine Eq.trans (congrArg (fun evidence : Evidence => { evidence with
    pipelineObservations :=
      if last.startTsNs ≤ last.endTsNs then evidence.pipelineObservations ++ [fileObservation last]
      else evidence.pipelineObservations
    fileIos := boundedPush evidence.retainAllEvidence evidence.fileIos last })
    (evidence_run_replicate backwards count room)) ?_
  exact (congrArg (fun evidence : Evidence => { evidence with
    fileIos := boundedPush engine.retainAllEvidence
      (engine.fileIos ++ replicate count file) last }) alone).symm

end

/-- A file record, and then a request that is issued and completed. -/
def opening (first : FileIo) : List StorageEvent :=
  [.fileIo first, .blockIssue (readIssue 1000 7), .blockComplete (readComplete 2000 7)]

/-- A file record that fits no request. -/
def filler : FileIo := { readFile 1 0 with operation := .write }

/-- As many other file records as there is room for, and then a read of a second file. -/
def crowd : List StorageEvent :=
  List.replicate (maxAnalysisSamples - 1) (.fileIo filler) ++ [.fileIo (readInode 42)]

variable {engine other : AnalysisEngine} {files : List FileIo}

section

variable (same : engine.evidence = { other.evidence with fileIos := files })
include same

theorem fileIos_of_evidence : engine.fileIos = files := congrArg Evidence.fileIos same

theorem graphNodes_of_evidence : engine.graphNodes = other.graphNodes :=
  congrArg Evidence.graphNodes same

theorem graphEdges_of_evidence : engine.graphEdges = other.graphEdges :=
  congrArg Evidence.graphEdges same

theorem observations_of_evidence : engine.pipelineObservations = other.pipelineObservations :=
  congrArg Evidence.pipelineObservations same

theorem completed_of_evidence : engine.completed = other.completed :=
  congrArg Evidence.completed same

theorem readAlike_of_evidence {io : CompletedIo} (nodeless : other.graphNodes = [])
    (candidates : files.filter (·.candidateFor io []) = other.candidates io) :
    ReadAlike io engine other := by
  have nodes := graphNodes_of_evidence same
  refine ⟨?_, ?_, ?_, ?_, ?_, ?_⟩
  · rw [← candidates, AnalysisEngine.candidates, nodes, nodeless, fileIos_of_evidence same]
    rfl
  · rw [nodes, nodeless]
    exact (filter_eq_nil_iff.mpr (by simp [FileIo.namesFor, nodesOf])).trans
      (filter_eq_nil_iff.mpr (by simp [FileIo.namesFor, nodesOf])).symm
  · rw [observations_of_evidence same]
  · rw [nodes]
  · rw [graphEdges_of_evidence same]
  · rw [show engine.evidenceWindows = other.evidenceWindows from
      congrArg Evidence.evidenceWindows same]

end

theorem filter_fillers (count : Nat) :
    (List.replicate count filler).filter (·.candidateFor readCompleted []) = [] := by
  rw [filter_replicate]
  exact if_neg (by decide +kernel)

/-- A crowd fills the buffer behind its first record, so that a tenth of it is lost. -/
theorem evicted_crowded (first : FileIo) :
    evicted false ([first] ++ replicate (maxAnalysisSamples - 1) filler) =
        first :: replicate 9_999 filler ∧
      evict false ([first] ++ replicate (maxAnalysisSamples - 1) filler) =
        replicate (maxAnalysisSamples - 1 - 9_999) filler := by
  have full : ([first] ++ replicate (maxAnalysisSamples - 1) filler).length =
      maxAnalysisSamples := by
    rw [length_append, length_replicate, length_singleton]
    decide
  have tenth : maxAnalysisSamples / 10 = 9_999 + 1 := by decide
  have few : 9_999 ≤ maxAnalysisSamples - 1 := by decide
  unfold evicted evict
  rw [if_pos (by rw [full]; decide), if_pos (by rw [full]; decide), tenth, singleton_append,
    take_succ_cons, drop_succ_cons, take_replicate, drop_replicate, Nat.min_eq_left few]
  exact ⟨rfl, rfl⟩

theorem filter_crowded (first : FileIo) :
    (boundedPush false ([first] ++ List.replicate (maxAnalysisSamples - 1) filler)
      (readInode 42)).filter (·.candidateFor readCompleted []) = [readInode 42] := by
  rw [boundedPush, (evicted_crowded first).2, filter_append, filter_fillers]
  decide +kernel

theorem fileIos_opening (retainAll : Bool) (first : FileIo) :
    (run step (freshRetaining retainAll 30_000_000_000 (by decide) none)
      (opening first)).fileIos = [first] := by
  show ((((_ : AnalysisEngine).step _).step _).step _).fileIos = _
  rw [fileIos_step, fileIos_step, fileIos_step]
  cases retainAll <;> rfl

/-- The engine that takes, of the records of a crowd, only the last. -/
def withoutCrowd (retainAll : Bool) (first : FileIo) : AnalysisEngine :=
  (run step { new with retainAllEvidence := retainAll } (opening first)).step
    (.fileIo (readInode 42))

/-- The engine that holds only the last record of a crowd. -/
def lastCandidate (first : FileIo) : AnalysisEngine :=
  { withoutCrowd false first with fileIos := [readInode 42] }

theorem evidence_crowded (retainAll : Bool) (first : FileIo) :
    (run step (freshRetaining retainAll 30_000_000_000 (by decide) none)
      (opening first ++ crowd)).evidence =
      { (withoutCrowd retainAll first).evidence with
        fileIos := boundedPush retainAll
          ([first] ++ replicate (maxAnalysisSamples - 1) filler) (readInode 42) } := by
  have retaining : (run step (freshRetaining retainAll 30_000_000_000 (by decide) none)
      (opening first)).retainAllEvidence = retainAll :=
    (retainAllEvidence_step ..).trans ((retainAllEvidence_step ..).trans
      (retainAllEvidence_step ..))
  have files := fileIos_opening retainAll first
  have crowded := evidence_run_crowd (by decide : ¬ filler.startTsNs ≤ filler.endTsNs)
    (maxAnalysisSamples - 1) (Or.inr (by rw [files, length_singleton]; decide)) (readInode 42)
  rw [run_append]
  rw [files, retaining] at crowded
  exact crowded

/-- What an engine holds that has lost a tenth of a crowd behind its first record. -/
def Crowded (first : FileIo) (engine : AnalysisEngine) : Prop :=
  engine.evidence = { (lastCandidate first).evidence with
    fileIos := boundedPush false ([first] ++ replicate (maxAnalysisSamples - 1) filler)
      (readInode 42) }

theorem crowded_run (first : FileIo) : Crowded first
    (run step (freshRetaining false 30_000_000_000 (by decide) none) (opening first ++ crowd)) := by
  have last (engine : AnalysisEngine) (held files : List FileIo) :
      { ({ engine with fileIos := held } : AnalysisEngine).evidence with fileIos := files } =
        { engine.evidence with fileIos := files } := rfl
  rw [Crowded, lastCandidate, last]
  exact evidence_crowded false first

theorem Crowded.readAlike {evicting : AnalysisEngine} {first : FileIo}
    (crowded : Crowded first evicting) (nodeless : (lastCandidate first).graphNodes = [])
    (only : (lastCandidate first).candidates readCompleted = [readInode 42]) :
    ReadAlike readCompleted evicting (lastCandidate first) :=
  readAlike_of_evidence crowded nodeless ((filter_crowded first).trans only.symm)

section Fillers

variable {evicting whole : AnalysisEngine} (crowded : Crowded filler evicting)
  (all : whole.evidence = { (withoutCrowd true filler).evidence with
    fileIos := boundedPush true ([filler] ++ replicate (maxAnalysisSamples - 1) filler)
      (readInode 42) })
include crowded all

theorem Crowded.lost : lostFrom whole.fileIos evicting.fileIos = replicate 10_000 filler := by
  have none_ (records : List FileIo) : lostFrom records records = [] := lostFrom_append [] records
  rw [fileIos_of_evidence all, fileIos_of_evidence crowded,
    lostFrom_boundedPush (suffix_refl _) false, none_, nil_append, (evicted_crowded filler).1,
    ← replicate_succ]

theorem Crowded.lossHarmless : LossHarmless readCompleted evicting whole := by
  have nodeless : evicting.graphNodes = [] :=
    (graphNodes_of_evidence crowded).trans (by decide +kernel)
  have allNodeless : whole.graphNodes = [] := (graphNodes_of_evidence all).trans (by decide +kernel)
  have unread : lostCandidates readCompleted evicting whole = [] := by
    unfold lostCandidates
    rw [crowded.lost all, nodeless]
    exact filter_fillers 10_000
  refine ⟨fun _ => unread, fun _ single => ?_, fun _ _ => ?_, ?_, ?_, ?_, ?_⟩
  · rw [unread] at single
    exact absurd single (by decide)
  · rw [allNodeless]
    rfl
  · rw [observations_of_evidence all, observations_of_evidence crowded]
    decide +kernel
  · rw [nodeless, allNodeless]
    decide
  · rw [graphEdges_of_evidence all, graphEdges_of_evidence crowded]
    decide +kernel
  · rw [completed_of_evidence all, completed_of_evidence crowded]
    decide +kernel

theorem Crowded.keeps_last : (lostFrom whole.fileIos evicting.fileIos).length = 10_000 ∧
    readCompleted ∈ evicting.completed ∧ (evicting.originsFor readCompleted).map
      (fun origin => (origin.file.inode, origin.confidence)) = [(42, .probable)] := by
  rw [crowded.lost all, length_replicate, completed_of_evidence crowded,
    (crowded.readAlike (by decide +kernel) (by decide +kernel)).origins]
  exact ⟨rfl, by decide +kernel, by decide +kernel⟩

end Fillers

/-- Every origin that an evicting engine reports for a request as at least probable is reported
with the same path and no less confidence when all evidence is retained, if what was lost is
harmless to the request. -/
theorem eviction_keeps_attribution (correlationTtlNs : U64) (ttlPositive : 0 < correlationTtlNs)
    (completionWindow : Option (U64 × U64)) (events : List StorageEvent) :
    let evicting := run step
      (freshRetaining false correlationTtlNs ttlPositive completionWindow) events
    let whole := run step
      (freshRetaining true correlationTtlNs ttlPositive completionWindow) events
    ∀ io ∈ evicting.completed, LossHarmless io evicting whole →
      ∀ origin ∈ evicting.originsFor io,
        EdgeConfidence.probable.rank ≤ origin.confidence.rank →
        ∃ other ∈ whole.originsFor io, other.file = origin.file ∧ other.path = origin.path ∧
          origin.confidence.rank ≤ other.confidence.rank := by
  intro evicting whole io _ harmless origin reported _
  have copy : EvictedCopy evicting whole := by
    refine run_lockstep (fun _ => EvictedCopy) ?_ (fun _ event copy => copy.step event) events
    have same {Record : Type} : ([] : List Record) <:+ [] := suffix_refl []
    exact ⟨rfl, rfl, ⟨rfl, rfl, rfl⟩, ⟨rfl, rfl⟩, same, same, same, same, same, fun _ _ => rfl⟩
  by_cases drained : evicting.candidates io = [] ∧ (lostCandidates io evicting whole).length = 1
  · rw [originsFor_eq_nil drained.1 (harmless.only drained.1 drained.2)] at reported
    exact absurd reported not_mem_nil
  · rw [(copy.readAlike harmless fun none_ single => drained ⟨none_, single⟩).origins] at reported
    exact ⟨origin, reported, rfl, rfl, le_rfl⟩

/-- The buffer fills with records that fit no request, and a tenth of them is lost. The request
keeps its only candidate, which came last. -/
theorem eviction_keeps_attribution_last :
    let events := opening filler ++ crowd
    let evicting := run step (freshRetaining false 30_000_000_000 (by decide) none) events
    let whole := run step (freshRetaining true 30_000_000_000 (by decide) none) events
    (lostFrom whole.fileIos evicting.fileIos).length = 10_000 ∧
      (evicting.originsFor readCompleted).map
          (fun origin => (origin.file.inode, origin.confidence)) = [(42, .probable)] ∧
      ∀ origin ∈ evicting.originsFor readCompleted,
        EdgeConfidence.probable.rank ≤ origin.confidence.rank →
        ∃ other ∈ whole.originsFor readCompleted, other.file = origin.file ∧
          other.path = origin.path ∧ origin.confidence.rank ≤ other.confidence.rank := by
  have crowded := crowded_run filler
  have all := evidence_crowded true filler
  obtain ⟨lost, retained, origins⟩ := crowded.keeps_last all
  exact ⟨lost, origins, eviction_keeps_attribution 30_000_000_000 (by decide) none
    (opening filler ++ crowd) readCompleted retained (crowded.lossHarmless all)⟩

/-- The engine that evicts reports the second file as the probable origin. All evidence together
has two candidates, and so no origin. -/
theorem eviction_hides_candidate :
    let events := opening (readInode 41) ++ crowd
    let evicting := run step (freshRetaining false 30_000_000_000 (by decide) none) events
    let whole := run step (freshRetaining true 30_000_000_000 (by decide) none) events
    readCompleted ∈ evicting.completed ∧
      (evicting.originsFor readCompleted).map
          (fun origin => (origin.file.inode, origin.confidence)) = [(42, .probable)] ∧
      whole.originsFor readCompleted = [] := by
  intro events evicting whole
  have crowded : Crowded (readInode 41) evicting := crowded_run (readInode 41)
  have wholeAlike : ReadAlike readCompleted whole (withoutCrowd true (readInode 41)) := by
    refine readAlike_of_evidence (evidence_crowded true (readInode 41)) (by decide +kernel) ?_
    show ([readInode 41] ++ replicate _ filler ++ [readInode 42]).filter _ = _
    rw [filter_append, filter_append, filter_fillers]
    decide +kernel
  rw [completed_of_evidence crowded,
    (crowded.readAlike (by decide +kernel) (by decide +kernel)).origins, wholeAlike.origins]
  decide +kernel

end AnalysisEngine

end EbpfStudio

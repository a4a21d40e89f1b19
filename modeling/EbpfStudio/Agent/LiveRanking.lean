/-
This file compares the live ranking of processes with the requests that the analysis completes.

The agent joins issues and completions by their ids alone, and the host by its correlator.
`PairsAlike` says for each event that both join it in the same way, and `Follows` that they then
wait for the same requests. So the entries are sums over the requests that the host completes.
-/

import EbpfStudio.Agent.HeavyHitters
import EbpfStudio.Protocol.Caches

namespace EbpfStudio

open Run List Option Table Bool Finset RequestCorrelator

def FileIdentity.fallbackLabel (identity : FileIdentity) : String :=
  "<inode " ++ toString identity.fsDeviceMajor.val ++ ":" ++
    toString identity.fsDeviceMinor.val ++ ":" ++ toString identity.inode.val ++ ">"

structure LiveHeavyHitters where
  pending : Table U64 BlockIssue := ∅
  processes : BoundedTop
  files : BoundedTop

def BlockIssue.processKey (issue : BlockIssue) : String :=
  issue.comm ++ " (" ++ toString issue.pid.val ++ ")"

def processObservation (issue : BlockIssue) (completion : BlockComplete) : TopObservation where
  key := issue.processKey
  bytes := Word.ofNat 64 issue.bytes.val
  latencyNs := completion.tsNs.saturatingSub issue.tsNs.val
  confidence := none

def fileObservationOf (file : FileIo) : TopObservation where
  key := ((file.pathSnapshot.bind (·.path)).or (file.path.or
    (file.fileIdentity.map (·.fallbackLabel)))).getD "Unattributed"
  bytes := Word.ofNat 64 (max file.completedBytes 0).toNat
  latencyNs := file.endTsNs.saturatingSub file.startTsNs.val
  confidence :=
    match file.confidence with
    | .exact => some .exact
    | .attributed => some .probable
    | _ => none

def originObservation (origin : RequestOrigin) : TopObservation where
  key := (origin.path.bind (·.path)).getD origin.file.fallbackLabel
  bytes := origin.bytes.getD 0
  latencyNs := 0
  confidence := some (origin.fileOriginConfidence.weakest origin.requestLifetimeConfidence)

namespace LiveHeavyHitters

def new (capacity : U64) : LiveHeavyHitters where
  processes := { capacity := capacity }
  files := { capacity := capacity }

/-- An event, with the order in which the map that it changes yields its entries. -/
abbrev Input := StorageEvent × List (String × TopEntry)

def observe (live : LiveHeavyHitters) (input : Input) : LiveHeavyHitters :=
  match input.1 with
  | .blockIssue issue => { live with pending := live.pending.insert issue.requestId issue }
  | .blockComplete completion =>
    match live.pending.lookup completion.requestId with
    | some issue =>
      { live with
        pending := live.pending.erase completion.requestId
        processes := live.processes.observe (processObservation issue completion, input.2) }
    | none => live
  | .fileIo file => { live with files := live.files.observe (fileObservationOf file, input.2) }
  | .requestOrigin origin =>
    { live with files := live.files.observe (originObservation origin, input.2) }
  | _ => live

end LiveHeavyHitters

inductive StreamEvent where
  | issue (issue : BlockIssue)
  | complete (completion : BlockComplete)

def StreamEvent.toStorageEvent : StreamEvent → StorageEvent
  | issue issued => .blockIssue issued
  | complete completion => .blockComplete completion

def CompletedIo.processObservation (io : CompletedIo) : TopObservation where
  key := io.issue.processKey
  bytes := Word.ofNat 64 io.issue.bytes.val
  latencyNs := io.deviceLatencyNs.getD 0
  confidence := none

def StreamEvent.issue? : StreamEvent → Option BlockIssue
  | issue issued => some issued
  | complete _ => none

def processKeys (events : List StreamEvent) : Finset String :=
  ((events.filterMap StreamEvent.issue?).map BlockIssue.processKey).toFinset

/-- An id that the agent waits for is issued again only when the host has given up the earlier
issue. A completion that the agent can join names the device of the issue, is not earlier than
it, and finds it pending at the host. -/
def PairsAlike (live : LiveHeavyHitters) (correlator : RequestCorrelator) : StreamEvent → Prop
  | .issue issued => ∀ waiting, live.pending.lookup issued.requestId = some waiting →
      (correlator.expireBefore issued.tsNs).pending.lookup (RequestKey.issue waiting) = none
  | .complete completion => ∀ waiting, live.pending.lookup completion.requestId = some waiting →
      RequestKey.issue waiting = RequestKey.complete completion ∧
        waiting.tsNs ≤ completion.tsNs ∧
        ((correlator.expireBefore completion.tsNs).pending.lookup
          (RequestKey.complete completion)).isSome = true

/-- What is pending at the host is what the agent waits for, and no key is ambiguous. -/
structure Follows (live : LiveHeavyHitters) (correlator : RequestCorrelator) : Prop where
  pending : ∀ key request, correlator.pending.lookup key = some request →
    RequestKey.issue request.issue = key ∧
      live.pending.lookup key.requestId = some request.issue
  clear : ∀ key, correlator.ambiguous.lookup key = none

section Follows

variable {live : LiveHeavyHitters} {correlator : RequestCorrelator}

theorem Follows.expireBefore (follows : Follows live correlator) (nowNs : U64) :
    Follows live (correlator.expireBefore nowNs) where
  pending key request found :=
    follows.pending key request (pending_of_expireBefore found)
  clear key := by
    show (retain _ correlator.ambiguous).lookup key = none
    rw [lookup_retain, follows.clear, filter_none]

theorem Follows.not_ambiguous (follows : Follows live correlator) (key : RequestKey) :
    correlator.ambiguous.containsKey key = false := by
  unfold containsKey
  rw [follows.clear key]
  rfl

theorem onIssueClassified_of_free {issue : BlockIssue} (accessPattern : AccessPattern)
    (fresh : (correlator.expireBefore issue.tsNs).pending.lookup (RequestKey.issue issue) = none)
    (clear : (correlator.expireBefore issue.tsNs).ambiguous.containsKey
      (RequestKey.issue issue) = false) :
    (correlator.onIssueClassified issue accessPattern).1.ambiguous =
        (correlator.expireBefore issue.tsNs).ambiguous ∧
      ∀ key, key ≠ RequestKey.issue issue →
        (correlator.onIssueClassified issue accessPattern).1.pending.lookup key =
          (correlator.expireBefore issue.tsNs).pending.lookup key := by
  have free : (correlator.expireBefore issue.tsNs).pending.containsKey (RequestKey.issue issue) =
      false := by
    unfold containsKey
    rw [fresh]
    rfl
  unfold onIssueClassified
  simp only [clear, free, Bool.or_false, Bool.false_eq_true, if_false]
  refine ⟨trivial, fun key other => ?_⟩
  rw [Table.lookup_insert_eq, if_neg other, Table.lookup_erase_eq, if_neg other]

section

variable (follows : Follows live correlator)
include follows

theorem Follows.issue {issue : BlockIssue} (accessPattern : AccessPattern)
    (order : List (String × TopEntry)) (alike : PairsAlike live correlator (.issue issue)) :
    Follows (live.observe (.blockIssue issue, order))
      (correlator.onIssueClassified issue accessPattern).1 := by
  have expired := follows.expireBefore issue.tsNs
  -- The host has given up every earlier issue of the id, whatever its device.
  have gone : ∀ key request, (correlator.expireBefore issue.tsNs).pending.lookup key =
      some request → key.requestId ≠ issue.requestId := by
    intro key request found sameId
    obtain ⟨own, waiting⟩ := expired.pending key request found
    rw [sameId] at waiting
    have none_ := alike request.issue waiting
    rw [own, found] at none_
    cases none_
  have fresh : (correlator.expireBefore issue.tsNs).pending.lookup (RequestKey.issue issue) =
      none := by
    cases found : (correlator.expireBefore issue.tsNs).pending.lookup (RequestKey.issue issue) with
    | none => rfl
    | some request => exact absurd rfl (gone _ request found)
  obtain ⟨ambiguous, others⟩ := onIssueClassified_of_free accessPattern fresh
    (expired.not_ambiguous _)
  refine ⟨fun key request found => ?_, fun key => ?_⟩
  · show _ ∧ (live.pending.insert issue.requestId issue).lookup key.requestId = _
    by_cases own : key = RequestKey.issue issue
    · rcases pending_of_onIssueClassified found with ⟨-, same⟩ | ⟨other, -⟩
      · rw [same, own, lookup_insert_eq]
        exact ⟨rfl, if_pos rfl⟩
      · exact absurd own other
    · rw [others key own] at found
      rw [lookup_insert_eq, if_neg (gone key request found)]
      exact expired.pending key request found
  · rw [ambiguous]
    exact expired.clear key

variable {completion : BlockComplete}

theorem Follows.complete (order : List (String × TopEntry))
    (alike : PairsAlike live correlator (.complete completion)) :
    Follows (live.observe (.blockComplete completion, order))
      (correlator.onComplete completion).1 := by
  have expired := follows.expireBefore completion.tsNs
  refine ⟨fun key request found => ?_, fun key => ?_⟩
  · obtain ⟨earlier, other⟩ := pending_of_onComplete found
    obtain ⟨own, waiting⟩ := expired.pending key request earlier
    refine ⟨own, ?_⟩
    unfold LiveHeavyHitters.observe
    dsimp only
    split
    · rename_i issue known
      rw [lookup_erase_eq, if_neg fun sameId => ?_]
      · exact waiting
      · rw [← sameId, waiting] at known
        cases known
        have key_eq := own.symm.trans (alike request.issue (sameId ▸ waiting)).1
        have marked := other key_eq
        rw [expired.not_ambiguous] at marked
        cases marked
    · exact waiting
  · unfold onComplete
    simp only [expired.not_ambiguous, false_eq_true, if_false]
    split <;> exact expired.clear key

theorem Follows.answers (alike : PairsAlike live correlator (.complete completion)) :
    (correlator.onComplete completion).2.map CompletedIo.processObservation =
      (live.pending.lookup completion.requestId).map (processObservation · completion) := by
  have expired := follows.expireBefore completion.tsNs
  cases known : live.pending.lookup completion.requestId with
  | none =>
    cases answered : (correlator.onComplete completion).2 with
    | none => rfl
    | some io =>
      obtain ⟨request, found, -⟩ := onComplete_eq_some answered
      have waiting := (expired.pending _ request found).2
      rw [show (RequestKey.complete completion).requestId = completion.requestId from rfl,
        known] at waiting
      cases waiting
  | some waiting =>
    obtain ⟨-, ordered, present⟩ := alike waiting known
    obtain ⟨request, found⟩ := isSome_iff_exists.mp present
    have same : waiting = request.issue :=
      some.inj (known.symm.trans (expired.pending _ request found).2)
    subst same
    obtain ⟨io, answered⟩ : ∃ io, (correlator.onComplete completion).2 = some io := by
      unfold onComplete
      simp only [expired.not_ambiguous, false_eq_true, if_false, found]
      unfold completed
      rw [Word.checkedSub_eq_some.mpr ⟨ordered, rfl⟩]
      exact ⟨_, rfl⟩
    obtain ⟨other, again, -, sameIssue, -⟩ := onComplete_eq_some answered
    obtain ⟨-, latency, checked, measured, -⟩ :=
      latencies_of_onComplete answered
    cases found.symm.trans again
    rw [answered, map_some, map_some, CompletedIo.processObservation, measured,
      (Word.checkedSub_eq_some.mp checked).2, sameIssue]
    rfl

end

end Follows

namespace LiveHeavyHitters

/-- A block event, with the order in which the map of processes yields its entries. -/
abbrev BlockInput := StreamEvent × List (String × TopEntry)

def after (capacity : U64) (inputs : List BlockInput) : LiveHeavyHitters :=
  run observe (new capacity) (inputs.map fun input => (input.1.toStorageEvent, input.2))

def storageEvents (inputs : List BlockInput) : List StorageEvent :=
  inputs.map (·.1.toStorageEvent)

def host (start : AnalysisEngine) (inputs : List BlockInput) : AnalysisEngine :=
  run AnalysisEngine.step start (storageEvents inputs)

def AlikeAfter (capacity : U64) (start : AnalysisEngine) (history : List BlockInput)
    (input : BlockInput) : Prop :=
  PairsAlike (after capacity history) (host start history).correlator input.1

def completedObservations (start : AnalysisEngine) (inputs : List BlockInput) :
    List TopObservation :=
  (AnalysisEngine.returned start (storageEvents inputs)).map CompletedIo.processObservation

structure Agrees (capacity : U64) (start : AnalysisEngine) (inputs : List BlockInput) : Prop where
  follows : Follows (after capacity inputs) (host start inputs).correlator
  issued : ∀ id issue, (after capacity inputs).pending.lookup id = some issue →
    issue.processKey ∈ processKeys (inputs.map (·.1))
  keys : ∀ observed ∈ completedObservations start inputs,
    observed.key ∈ processKeys (inputs.map (·.1))
  sameCapacity : (after capacity inputs).processes.capacity = capacity
  complete : (processKeys (inputs.map (·.1))).card ≤ capacity.val →
    BoundedTop.InRange (completedObservations start inputs) →
    BoundedTop.Complete (completedObservations start inputs) (after capacity inputs).processes

section Runs

variable {capacity : U64} {start : AnalysisEngine} {history : List BlockInput} {input : BlockInput}

theorem after_snoc : after capacity (history ++ [input]) =
    (after capacity history).observe (input.1.toStorageEvent, input.2) := by
  unfold after
  rw [map_append]
  exact run_snoc ..

theorem host_snoc :
    host start (history ++ [input]) = (host start history).step input.1.toStorageEvent := by
  unfold host storageEvents
  rw [map_append]
  exact run_snoc ..

theorem completedObservations_snoc : completedObservations start (history ++ [input]) =
    completedObservations start history ++ (((host start history).ingest
      input.1.toStorageEvent).2.map CompletedIo.processObservation).toList := by
  unfold completedObservations host storageEvents
  rw [List.map_append, List.map_singleton, AnalysisEngine.returned_snoc, List.map_append,
    Option.toList_map]

theorem processKeys_subset :
    processKeys (history.map (·.1)) ⊆ processKeys ((history ++ [input]).map (·.1)) := by
  unfold processKeys
  rw [map_append, filterMap_append, map_append, toFinset_append]
  exact subset_union_left

theorem agrees_start (ttlNs : U64) (ttlPositive : 0 < ttlNs) (window : Option (U64 × U64)) :
    Agrees capacity (.fresh ttlNs ttlPositive window) [] where
  follows := ⟨fun _ _ found => (nomatch found), fun _ => rfl⟩
  issued _ _ found := nomatch found
  keys _ member := nomatch member
  sameCapacity := rfl
  complete _ _ := ⟨fun _ => TopEntry.exactly_nil, rfl, rfl⟩

theorem ingest_complete (engine : AnalysisEngine) (completion : BlockComplete) :
    (engine.ingest (.blockComplete completion)).2 =
      (engine.correlator.onComplete completion).2 := by
  show (engine.ingestBlockComplete completion).2 = _
  unfold AnalysisEngine.ingestBlockComplete
  dsimp only
  show _ = ((engine.observeTs completion.tsNs).correlator.onComplete completion).2
  split <;> simp_all

variable {order : List (String × TopEntry)}

theorem Agrees.issue {issued : BlockIssue} (agrees : Agrees capacity start history)
    (alike : AlikeAfter capacity start history (.issue issued, order)) :
    Agrees capacity start (history ++ [(.issue issued, order)]) := by
  have same : completedObservations start (history ++ [(.issue issued, order)]) =
      completedObservations start history := by
    rw [completedObservations_snoc]
    exact append_nil _
  have own : issued.processKey ∈
      processKeys ((history ++ [((.issue issued, order) : BlockInput)]).map (·.1)) := by
    simp [processKeys, StreamEvent.issue?]
  refine ⟨?_, fun id issue found => ?_, ?_, ?_, ?_⟩
  · rw [after_snoc, host_snoc, AnalysisEngine.correlator_step]
    exact agrees.follows.issue _ order alike
  · rw [after_snoc] at found
    have looked : ((after capacity history).pending.insert issued.requestId issued).lookup id =
      some issue := found
    rw [lookup_insert_eq] at looked
    split at looked
    · cases looked
      exact own
    · exact processKeys_subset (agrees.issued id issue looked)
  · rw [same]
    exact fun observed member => processKeys_subset (agrees.keys observed member)
  · rw [after_snoc]
    exact agrees.sameCapacity
  · rw [same, after_snoc]
    exact fun room => agrees.complete ((card_le_card processKeys_subset).trans room)

theorem Agrees.completed {completion : BlockComplete} (agrees : Agrees capacity start history)
    (alike : AlikeAfter capacity start history (.complete completion, order)) :
    Agrees capacity start (history ++ [(.complete completion, order)]) := by
  have follows : Follows (after capacity (history ++ [(.complete completion, order)]))
      (host start (history ++ [(.complete completion, order)])).correlator := by
    rw [after_snoc, host_snoc, AnalysisEngine.correlator_step]
    exact agrees.follows.complete order alike
  have grown := @completedObservations_snoc start history (.complete completion, order)
  rw [show (StreamEvent.complete completion).toStorageEvent = .blockComplete completion from rfl,
    ingest_complete, agrees.follows.answers alike] at grown
  have moved := @after_snoc capacity history (.complete completion, order)
  rw [show (StreamEvent.complete completion).toStorageEvent = .blockComplete completion from rfl,
    observe] at moved
  have few := @processKeys_subset history (.complete completion, order)
  cases known : (after capacity history).pending.lookup completion.requestId with
  | none =>
    simp only [known] at moved
    rw [known, map_none, toList_none, append_nil] at grown
    refine ⟨follows, ?_, ?_, moved ▸ agrees.sameCapacity, ?_⟩
    · rw [moved]
      exact fun id issue found => few (agrees.issued id issue found)
    · rw [grown]
      exact fun observed member => few (agrees.keys observed member)
    · rw [grown, moved]
      exact fun room => agrees.complete ((card_le_card few).trans room)
  | some issue =>
    simp only [known] at moved
    rw [known, map_some, toList_some] at grown
    have keys : ∀ observed ∈ completedObservations start
        (history ++ [(.complete completion, order)]),
        observed.key ∈ processKeys ((history ++ [((.complete completion, order) : BlockInput)]).map
          (·.1)) := by
      rw [grown]
      intro observed member
      rcases mem_append.mp member with earlier | now
      · exact few (agrees.keys observed earlier)
      · rw [List.mem_singleton.mp now]
        exact few (agrees.issued _ issue known)
    refine ⟨follows, fun id other found => ?_, keys, ?_, fun room inRange => ?_⟩
    · rw [moved, lookup_erase_eq] at found
      split at found
      · cases found
      · exact few (agrees.issued id other found)
    · rw [moved]
      exact (BoundedTop.observe_capacity _ _).trans agrees.sameCapacity
    · have within : ((completedObservations start (history ++ [(.complete completion, order)])).map
          (·.key)).toFinset ⊆
          processKeys ((history ++ [((.complete completion, order) : BlockInput)]).map (·.1)) := by
        intro key member
        obtain ⟨observed, listed, rfl⟩ := mem_map.mp (mem_toFinset.mp member)
        exact keys observed listed
      rw [grown] at inRange within
      rw [grown, moved]
      refine @BoundedTop.Complete.observe _ _ (processObservation issue completion, order)
        (agrees.complete ((card_le_card few).trans room)
          (inRange.sublist (sublist_append_left _ _))) inRange ?_
      rw [agrees.sameCapacity]
      exact (card_le_card within).trans room

theorem agrees_run (ttlNs : U64) (ttlPositive : 0 < ttlNs) (window : Option (U64 × U64))
    (inputs : List BlockInput)
    (alike : StepsMeet (AlikeAfter capacity (.fresh ttlNs ttlPositive window)) inputs) :
    Agrees capacity (.fresh ttlNs ttlPositive window) inputs := by
  induction inputs using reverseRecOn with
  | nil => exact agrees_start ttlNs ttlPositive window
  | append_singleton history input hypothesis =>
    have agrees := hypothesis alike.of_append
    rcases input with ⟨issued | completion, order⟩
    · exact agrees.issue alike.last
    · exact agrees.completed alike.last

end Runs

/-- In every stream of issues and completions whose process keys all have room, whose sums are in
range and whose events agent and host pair alike, the live ranking has an entry for the process
of every request that the analysis completes, and each of its entries has the count, the bytes
and the device latencies of the completed requests of its process. -/
theorem live_ranking_agrees (capacity ttlNs : U64) (ttlPositive : 0 < ttlNs)
    (window : Option (U64 × U64)) (inputs : List BlockInput)
    (room : (processKeys (inputs.map (·.1))).card ≤ capacity.val)
    (inRange : BoundedTop.InRange
      (completedObservations (.fresh ttlNs ttlPositive window) inputs))
    (alike : StepsMeet (AlikeAfter capacity (.fresh ttlNs ttlPositive window)) inputs) :
    let completed := completedObservations (.fresh ttlNs ttlPositive window) inputs
    let ranking := (after capacity inputs).processes.entries
    (∀ observed ∈ completed, (ranking.lookup observed.key).isSome = true) ∧
      ∀ key entry, ranking.lookup key = some entry →
        entry.Exactly (ownObservations key completed) := by
  have complete := (agrees_run ttlNs ttlPositive window inputs alike).complete room inRange
  refine ⟨fun observed member => ?_, fun key entry found => ?_⟩
  · refine Table.mem_keySet.mp ?_
    rw [complete.keys, List.mem_toFinset]
    exact List.mem_map_of_mem member
  · have exactly := complete.exactly key
    rw [found] at exactly
    exact exactly

def sampleInputs : List BlockInput :=
  [(.issue (readIssue 10 7), []), (.complete (readComplete 30 7), [])]

theorem live_ranking_of_sample :
    ((after 8 sampleInputs).processes.entries.lookup "reader (10)").isSome = true := by
  refine (live_ranking_agrees 8 1000 (by decide) none sampleInputs (by decide +kernel)
    ⟨by decide +kernel, by decide +kernel, by decide +kernel⟩ ?_).1
    (processObservation (readIssue 10 7) (readComplete 30 7)) (by decide +kernel)
  refine StepsMeet.snoc (StepsMeet.snoc (stepsMeet_nil _) ?_) ?_
  · exact fun waiting known => (nomatch known)
  · intro waiting known
    cases known
    exact ⟨rfl, by decide +kernel, by decide +kernel⟩

/-- An id that is issued twice before it completes: the agent counts the second request, and the
host completes none. -/
theorem reissue_is_counted :
    let inputs : List BlockInput := [(.issue (readIssue 10 7), []), (.issue (readIssue 20 7), []),
      (.complete (readComplete 30 7), [])]
    ((after 8 inputs).processes.entries.lookup "reader (10)").map (·.count) = some 1 ∧
      completedObservations (.fresh 1000 (by decide) none) inputs = [] := by
  decide +kernel

end LiveHeavyHitters

end EbpfStudio

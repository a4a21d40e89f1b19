/-
This file proves that the projection of a trace keeps every completion.

The projection fails only at a completion whose size does not fit, so with a bound on the sizes
there is a record for each completion. The records are numbered from the completions on to the
waits, and the footer counts both.
-/

import EbpfStudio.Desktop.Reconstruction

namespace EbpfStudio

open Run List Table

section Sources

variable (trace : DecodedTrace)

theorem requeues_step (unreliable : Bool) (analyzer : Analyzer) (ref : EventRef) :
    ∃ listed : List U64, (analyzer.step unreliable ref).out.unpairedRequeueRecords =
      analyzer.out.unpairedRequeueRecords ++ listed ∧ ∀ id ∈ listed, id = ref.event.recordId := by
  unfold Analyzer.step
  cases ref.event.kind with
  | requeue =>
    refine ⟨_, rfl, fun id member => ?_⟩
    split at member
    · cases member
    · exact mem_singleton.mp member
  | insert | issue =>
    refine ⟨[], ?_, fun id member => absurd member not_mem_nil⟩
    simp only [Analyzer.onInsert, Analyzer.onIssue, append_nil]
    split <;> rfl
  | complete => exact ⟨[], (append_nil _).symm, fun id member => absurd member not_mem_nil⟩

theorem requeue_of_trace {id : U64} (listed : id ∈ (analyze trace).unpairedRequeueRecords) :
    ∃ event ∈ trace.events, event.recordId = id := by
  have inRefs : ∀ id ∈ (run (Analyzer.step trace.quality.compromised) {}
      (eventRefs trace.events)).out.unpairedRequeueRecords,
      id ∈ (eventRefs trace.events).map (·.event.recordId) := by
    refine run_induction (fun (refs : List EventRef) (analyzer : Analyzer) =>
      ∀ id ∈ analyzer.out.unpairedRequeueRecords, id ∈ refs.map (·.event.recordId))
      (fun id member => ?_) (fun history ref known id member => ?_) _
    · cases member
    · obtain ⟨added, grown, own⟩ := requeues_step trace.quality.compromised
        (run (Analyzer.step trace.quality.compromised) {} history) ref
      rw [grown] at member
      rw [map_append]
      exact mem_append.mpr ((mem_append.mp member).imp (known id) fun new =>
        mem_singleton.mpr (own id new))
  obtain ⟨ref, member, same⟩ := mem_map.mp (inRefs id listed)
  exact ⟨ref.event, map_event_eventRefs trace.events ▸ mem_map_of_mem member, same⟩

theorem unmatched_of_trace {id : U64} (listed : id ∈ (analyze trace).unmatchedIssueRecords) :
    ∃ event ∈ trace.events, event.recordId = id := by
  obtain ⟨refs, names, accounted⟩ := perm_issues trace
  rw [names] at listed
  obtain ⟨ref, member, same⟩ := mem_map.mp listed
  have known := mem_of_mem_filter (accounted.subset (mem_append_right _ member))
  exact ⟨ref.event, map_event_eventRefs trace.events ▸ mem_map_of_mem known, same⟩

theorem bytes_observe (unreliable : Bool) (complete : EventRef) (pending : List Pending) :
    (observe unreliable complete pending).bytes = complete.event.bytes := by
  unfold observe
  split
  · rfl
  · dsimp only
    split <;> rfl
  · rfl

theorem completion_of_trace {observation : BlockObservation}
    (listed : observation ∈ (analyze trace).completions) :
    ∃ event ∈ trace.events, event.kind = .complete ∧
      event.recordId = observation.completionRecord ∧ event.bytes = observation.bytes := by
  rw [completions_analyze] at listed
  obtain ⟨history, ref, rest, split, observed⟩ := mem_collect.mp listed
  obtain ⟨complete, rfl⟩ := Option.ite_none_right_eq_some.mp observed |>.imp_right Option.some.inj
  have known : ref ∈ eventRefs trace.events :=
    split ▸ (mem_append_right _ mem_cons_self)
  exact ⟨ref.event, map_event_eventRefs trace.events ▸ mem_map_of_mem known, complete,
    (completionRecord_observe _ _ _).symm, (bytes_observe _ _ _).symm⟩

theorem record_known (observation : BlockObservation)
    (listed : observation ∈ (analyze trace).completions) :
    (((Projection.new trace).withAnalysis (analyze trace)).records.lookup
      observation.completionRecord).isSome = true := by
  obtain ⟨event, member, -, same, -⟩ := completion_of_trace trace listed
  exact same ▸ isSome_lookup_ofEach member

theorem filterMap_lookup {ids : List U64}
    (known : ∀ id ∈ ids, ∃ event ∈ trace.events, event.recordId = id) :
    (ids.filterMap (Table.ofEach (·.recordId) trace.events).lookup).length = ids.length := by
  rw [length_filterMap_eq_countP, countP_eq_length]
  intro id member
  obtain ⟨event, listed, rfl⟩ := known id member
  exact isSome_lookup_ofEach listed

end Sources

def rowSum (trace : DecodedTrace) (count : DeviceCoverage → Nat) : Nat :=
  (((deviceCoverage trace (analyze trace)).orderedValues Device.le).map count).sum

theorem rowSum_eq (trace : DecodedTrace) {count : DeviceCoverage → Nat}
    {perCompletion : BlockObservation → Nat} {perUnmatched perRequeue : Nat}
    (empty : ∀ device, count (.of device) = 0)
    (completions : ∀ observation row,
      count (.addCompletion observation row) = count row + perCompletion observation)
    (unmatched : ∀ row : DeviceCoverage,
      count { row with unmatched := row.unmatched + 1 } = count row + perUnmatched)
    (requeues : ∀ row : DeviceCoverage,
      count { row with requeues := row.requeues + 1 } = count row + perRequeue) :
    rowSum trace count = ((analyze trace).completions.map perCompletion).sum +
      (analyze trace).unmatchedIssueRecords.length * perUnmatched +
      (analyze trace).unpairedRequeueRecords.length * perRequeue := by
  have sums : rowSum trace count = (deviceCoverage trace (analyze trace)).sum count :=
    ((Table.perm_orderedValues Device.le _).map count).sum_nat
  rw [sums]
  unfold deviceCoverage
  rw [sum_alterEach count (fun _ => perRequeue) empty fun _ => requeues,
    sum_alterEach count (fun _ => perUnmatched) empty fun _ => unmatched,
    sum_alterEach count perCompletion empty completions, map_const', map_const',
    sum_replicate_nat, sum_replicate_nat,
    filterMap_lookup trace fun _ => unmatched_of_trace trace,
    filterMap_lookup trace fun _ => requeue_of_trace trace]
  simp [Table.sum, Table.values, Table.toPairs]

def numbered : Nat → List StorageEvent → List WireRecord
  | _, [] => []
  | sequence, event :: rest => .event sequence event :: numbered (sequence + 1) rest

theorem numbered_append (sequence : Nat) (first second : List StorageEvent) :
    numbered sequence (first ++ second) =
      numbered sequence first ++ numbered (sequence + first.length) second := by
  induction first generalizing sequence with
  | nil => rfl
  | cons event rest hypothesis =>
    rw [cons_append, numbered, numbered, hypothesis, length_cons,
      Nat.add_assoc, Nat.add_comm 1]
    rfl

theorem waitRecords_eq (sequence : Nat) (waits : List SchedulerIoWait) :
    waitRecords sequence waits = numbered (sequence + 1) (waits.map .schedulerIoWait) := by
  have shifted : ∀ place, ((waits.zipIdx place).map fun entry =>
      WireRecord.event (sequence + entry.2 + 1) (.schedulerIoWait entry.1)) =
        numbered (sequence + place + 1) (waits.map .schedulerIoWait) := by
    induction waits with
    | nil => exact fun _ => rfl
    | cons wait rest hypothesis =>
      intro place
      rw [zipIdx_cons, map_cons, hypothesis]
      rfl
  exact shifted 0

theorem projectCompletions_eq {projection : Projection} {completions : List BlockObservation}
    (known : ∀ observation ∈ completions,
      (projection.records.lookup observation.completionRecord).isSome = true)
    (small : ∀ observation ∈ completions, observation.bytes.val < 2 ^ 32) (sequence : Nat) :
    ∃ ios : List CompletedIo, projectCompletions projection sequence completions =
        (numbered sequence (ios.map .observedBlockCompletion), none) ∧
      ios.map (·.completion.requestId) = completions.map (·.completionRecord) := by
  induction completions generalizing sequence with
  | nil => exact ⟨[], rfl, rfl⟩
  | cons observation rest hypothesis =>
    obtain ⟨raw, found⟩ := Option.isSome_iff_exists.mp (known observation mem_cons_self)
    have fits : Word.tryFrom 32 observation.bytes = some ⟨observation.bytes.val,
      small observation mem_cons_self⟩ := dif_pos (small observation mem_cons_self)
    obtain ⟨io, projected, same⟩ : ∃ io, projection.completion observation = .ok io ∧
        io.completion.requestId = observation.completionRecord := by
      unfold Projection.completion
      rw [found, fits]
      exact ⟨_, rfl, rfl⟩
    obtain ⟨ios, rest_eq, ids⟩ := hypothesis
      (fun other member => known other (mem_cons_of_mem _ member))
      (fun other member => small other (mem_cons_of_mem _ member)) (sequence + 1)
    refine ⟨io :: ios, ?_, by rw [map_cons, map_cons, same, ids]⟩
    rw [projectCompletions, projected, rest_eq]
    rfl

/-- For every trace whose completions carry less than 2^32 bytes, the projection does not fail: it
has one event for each completion, in trace order and with its record id, and one for each wait,
numbered without a gap, between the header and a footer with their number. The coverage of the
devices counts every completion, every one without an issue, and every unmatched issue and
requeue once. -/
theorem projection_keeps_every_completion (trace : DecodedTrace) (rawTrace : String)
    (small : ∀ event ∈ trace.events, event.kind = .complete → event.bytes.val < 2 ^ 32) :
    (∃ (ios : List CompletedIo) (capabilities : ProbeCapabilities) (graceful : Option Bool),
      let events := ios.map .observedBlockCompletion ++ trace.schedulerWaits.map .schedulerIoWait
      projectRecords trace rawTrace =
          (.sourceInfo "perfetto" (perfettoStatus trace) (completeMetadata trace rawTrace) ::
            .capabilities capabilities :: numbered 1 events ++
            [.footer events.length events.length 0 0 graceful], none) ∧
        ios.map (·.completion.requestId) =
          (trace.events.filter (·.kind = .complete)).map (·.recordId)) ∧
      rowSum trace (·.completions) = (trace.events.filter (·.kind = .complete)).length ∧
      rowSum trace (·.unresolved) =
        (analyze trace).completions.countP (·.issueTimestampNs.isNone) ∧
      rowSum trace (·.unmatched) = (analyze trace).unmatchedIssueRecords.length ∧
      rowSum trace (·.requeues) = (analyze trace).unpairedRequeueRecords.length := by
  refine ⟨?_, ?_, ?_, ?_, ?_⟩
  · obtain ⟨ios, completions, ids⟩ := projectCompletions_eq (record_known trace)
      (fun observation listed => by
        obtain ⟨event, member, complete, -, same⟩ := completion_of_trace trace listed
        exact same ▸ small event member complete) 1
    have count : ios.length = (analyze trace).completions.length := by
      rw [← length_map, ids, length_map]
    refine ⟨ios,
      { blockIssue := trace.events.any (·.kind = .issue)
        blockComplete := !(analyze trace).completions.isEmpty
        blockInsert := trace.events.any (·.kind = .insert) },
      some (!trace.quality.truncated && trace.quality.ftraceEndSeen &&
        !trace.quality.projectionLimited), ?_, ids.trans (completionRecords_analyze trace)⟩
    unfold projectRecords
    dsimp only
    rw [completions]
    rw [waitRecords_eq, numbered_append, length_append, length_map, length_map,
      count, Nat.add_comm 1]
    simp only [append_assoc, cons_append, nil_append]
  · rw [@rowSum_eq trace (·.completions) (fun _ => 1) 0 0 (fun _ => rfl) (fun _ _ => rfl)
      (fun _ => rfl) fun _ => rfl]
    have listed := congrArg length (completionRecords_analyze trace)
    rw [length_map, length_map] at listed
    simp [listed]
  · rw [@rowSum_eq trace (·.unresolved)
      (fun observation => if observation.issueTimestampNs.isNone then 1 else 0) 0 0 (fun _ => rfl)
      (fun _ _ => rfl) (fun _ => rfl) fun _ => rfl]
    simp only [Nat.mul_zero, Nat.add_zero]
    generalize (analyze trace).completions = completions
    induction completions with
    | nil => rfl
    | cons observation rest hypothesis =>
      rw [map_cons, sum_cons, countP_cons, ← hypothesis]
      exact Nat.add_comm _ _
  · rw [@rowSum_eq trace (·.unmatched) (fun _ => 0) 1 0 (fun _ => rfl) (fun _ _ => rfl)
      (fun _ => rfl) fun _ => rfl]
    simp
  · rw [@rowSum_eq trace (·.requeues) (fun _ => 0) 0 1 (fun _ => rfl) (fun _ _ => rfl)
      (fun _ => rfl) fun _ => rfl]
    simp

def sampleTrace : DecodedTrace :=
  { events := [pageEvent 1 .issue 100, pageEvent 2 .complete 200, pageEvent 3 .issue 300] }

theorem projection_of_sample :
    rowSum sampleTrace (·.completions) = 1 ∧ rowSum sampleTrace (·.unmatched) = 1 := by
  obtain ⟨-, completions, -, unmatched, -⟩ :=
    projection_keeps_every_completion sampleTrace "" (by decide +kernel)
  exact ⟨completions.trans (by decide +kernel), unmatched.trans (by decide +kernel)⟩

end EbpfStudio

/-
This file accounts for the issues and inserts of a Perfetto trace.

A step of the analyzer adds an event to the pending ones, hands a pending one to a completion, or
lists it as unmatched. So `run_conserves` gives the account of a whole trace. The exception is an
issue that a completion takes without getting a time from it.
-/

import EbpfStudio.Desktop.Perfetto

namespace EbpfStudio

open Run List Option Table Analyzer

theorem map_issue_compromise (event : EventRef) (pending : List Pending) :
    (compromise event pending).map (·.issue) = pending.map (·.issue) := by
  unfold compromise
  rw [List.map_map]
  refine List.map_congr_left fun entry _ => ?_
  dsimp only [Function.comp]
  split <;> rfl

variable {pending : List Pending} {complete : EventRef}

theorem takenBy_eq_some {entry : Pending} (taken : takenBy complete pending = some entry) :
    candidates complete pending = [entry] ∧ entry.issue.sameRange complete = true := by
  unfold takenBy at taken
  split at taken
  · rename_i candidate only
    obtain ⟨exactly, same⟩ := ite_none_right_eq_some.mp taken
    cases same
    exact ⟨only, exactly⟩
  · cases taken

theorem perm_settle (complete : EventRef) (pending : List Pending) :
    ((settle complete pending).map (·.issue) ++
      ((takenBy complete pending).map (·.issue)).toList).Perm (pending.map (·.issue)) := by
  unfold settle
  cases known : takenBy complete pending with
  | none =>
    rw [if_neg (by decide), map_issue_compromise, map_none, toList_none,
      append_nil]
  | some entry =>
    rw [if_pos isSome_some]
    obtain ⟨only, -⟩ := takenBy_eq_some known
    have split := (filter_append_perm (fun entry : Pending => entry.issue.overlaps complete)
      pending).map (·.issue)
    unfold candidates at only
    rw [only, map_append] at split
    exact perm_append_comm.trans split

theorem insertOf_eq_some {issue : EventRef} {inserted : List EventRef} {entry : EventRef}
    (taken : insertOf issue inserted = some entry) :
    inserted.filter (·.overlaps issue) = [entry] := by
  unfold insertOf at taken
  split at taken
  · rename_i insert only
    obtain ⟨-, same⟩ := ite_none_right_eq_some.mp taken
    cases same
    exact only
  · cases taken

theorem perm_withoutInsertOf (issue : EventRef) (inserted : List EventRef) :
    (withoutInsertOf issue inserted ++ (insertOf issue inserted).toList).Perm inserted := by
  unfold withoutInsertOf
  cases known : insertOf issue inserted with
  | none => rw [if_neg (by decide), toList_none, append_nil]
  | some entry =>
    rw [if_pos isSome_some]
    have split := filter_append_perm (fun entry : EventRef => entry.overlaps issue) inserted
    rw [insertOf_eq_some known] at split
    exact perm_append_comm.trans split

namespace Analyzer

def arrives (kind : BlockKind) (ref : EventRef) : List EventRef :=
  if ref.event.kind = kind then [ref] else []

def consumes (analyzer : Analyzer) (ref : EventRef) : Option (EventRef × EventRef) :=
  if ref.event.kind = .complete then
    (takenBy ref (analyzer.pending.listAt ref.key)).map fun entry => (entry.issue, ref)
  else none

def consumesInsert (analyzer : Analyzer) (ref : EventRef) : Option EventRef :=
  if ref.event.kind = .issue then insertOf ref (analyzer.inserted.listAt ref.key) else none

def drains (analyzer : Analyzer) (ref : EventRef) : List EventRef :=
  if ref.event.kind = .issue ∧
      maxPendingPerDevice ≤ (analyzer.pending.listAt ref.key).length then
    (analyzer.pending.listAt ref.key).map (·.issue)
  else []

def drainsInserts (analyzer : Analyzer) (ref : EventRef) : List EventRef :=
  if ref.event.kind = .insert ∧
      maxPendingPerDevice ≤ (analyzer.inserted.listAt ref.key).length then
    analyzer.inserted.listAt ref.key
  else []

theorem length_compromise (event : EventRef) (pending : List Pending) :
    (compromise event pending).length = pending.length := length_map _

section Step

variable (unreliable : Bool) (analyzer : Analyzer) (ref : EventRef)

theorem unmatched_step :
    (analyzer.step unreliable ref).out.unmatchedIssueRecords =
      analyzer.out.unmatchedIssueRecords ++ (analyzer.drains ref).map (·.event.recordId) := by
  unfold step drains
  cases ref.event.kind with
  | issue =>
    simp only [onIssue, length_compromise, true_and]
    split
    · rw [← map_issue_compromise ref, List.map_map]
      rfl
    · exact (List.append_nil _).symm
  | insert =>
    simp only [onInsert, reduceCtorEq, false_and, if_false, map_nil, append_nil]
    split <;> rfl
  | requeue | complete =>
    simp only [reduceCtorEq, false_and, if_false, map_nil, append_nil]
    rfl

theorem orphans_step :
    (analyzer.step unreliable ref).out.orphanInsertRecords =
      analyzer.out.orphanInsertRecords ++
        (analyzer.drainsInserts ref).map (·.event.recordId) := by
  unfold step drainsInserts
  cases ref.event.kind with
  | insert =>
    simp only [onInsert, true_and]
    split
    · rfl
    · exact (append_nil _).symm
  | issue =>
    simp only [onIssue, reduceCtorEq, false_and, if_false, map_nil, append_nil]
    split <;> rfl
  | requeue | complete =>
    simp only [reduceCtorEq, false_and, if_false, map_nil, append_nil]
    rfl

theorem perm_pending_step :
    ((analyzer.step unreliable ref).pending.records.map (·.issue) ++
      (((analyzer.consumes ref).map (·.1)).toList ++ analyzer.drains ref)).Perm
        (analyzer.pending.records.map (·.issue) ++ arrives .issue ref) := by
  unfold step consumes drains arrives
  cases ref.event.kind with
  | issue =>
    simp only [reduceCtorEq, if_false, if_true, true_and, map_none, toList_none,
      nil_append, onIssue, length_compromise]
    split
    · exact perm_records_exchange _ _ _ perm_append_comm
    · refine perm_records_exchange _ _ _ ?_
      rw [append_nil, map_append, map_issue_compromise]
      exact Perm.refl _
  | insert =>
    simp only [reduceCtorEq, if_false, false_and, map_none, toList_none,
      append_nil, onInsert]
    split <;> exact Perm.refl _
  | requeue =>
    simp only [reduceCtorEq, if_false, false_and, map_none, toList_none, onRequeue]
    refine perm_records_exchange _ _ _ ?_
    rw [append_nil, append_nil, append_nil, map_issue_compromise]
  | complete =>
    simp only [reduceCtorEq, if_false, if_true, false_and, Option.map_map, onComplete]
    refine perm_records_exchange _ _ _ ?_
    rw [append_nil, append_nil]
    exact perm_settle ref _

theorem perm_inserted_step :
    ((analyzer.step unreliable ref).inserted.records ++
      ((analyzer.consumesInsert ref).toList ++ analyzer.drainsInserts ref)).Perm
        (analyzer.inserted.records ++ arrives .insert ref) := by
  rw [← map_id (analyzer.step unreliable ref).inserted.records,
    ← map_id analyzer.inserted.records]
  unfold step consumesInsert drainsInserts arrives
  cases ref.event.kind with
  | insert =>
    simp only [reduceCtorEq, if_false, if_true, true_and, toList_none, nil_append,
      onInsert]
    split
    · refine Table.perm_records_exchange _ _ _ ?_
      rw [List.map_id, List.map_id]
      exact List.perm_append_comm
    · refine Table.perm_records_exchange _ _ _ ?_
      rw [List.append_nil, List.map_id, List.map_id]
  | issue =>
    have exchange : ((withoutInsertOf ref (analyzer.inserted.listAt ref.key)).map id ++
        ((insertOf ref (analyzer.inserted.listAt ref.key)).toList ++ [])).Perm
          ((analyzer.inserted.listAt ref.key).map id ++ []) := by
      rw [List.map_id, List.map_id, List.append_nil, List.append_nil]
      exact perm_withoutInsertOf ref _
    simp only [reduceCtorEq, if_false, if_true, false_and, onIssue]
    split <;> exact perm_records_exchange _ _ _ exchange
  | requeue | complete =>
    simp only [reduceCtorEq, if_false, false_and, toList_none, append_nil]
    exact List.Perm.refl _

end Step

theorem flatMap_arrives (kind : BlockKind) (refs : List EventRef) :
    refs.flatMap (arrives kind) = refs.filter (·.event.kind = kind) := by
  induction refs with
  | nil => rfl
  | cons ref rest hypothesis =>
    rw [flatMap_cons, hypothesis, filter_cons, arrives]
    by_cases same : ref.event.kind = kind
    · rw [if_pos same, if_pos (decide_eq_true same)]
      rfl
    · rw [if_neg same, if_neg (by simp [same])]
      rfl

def observes (unreliable : Bool) (analyzer : Analyzer) (ref : EventRef) :
    Option BlockObservation :=
  if ref.event.kind = .complete then
    some (observe unreliable ref (analyzer.pending.listAt ref.key))
  else none

theorem completions_step (unreliable : Bool) (analyzer : Analyzer) (ref : EventRef) :
    (analyzer.step unreliable ref).out.completions =
      analyzer.out.completions ++ (analyzer.observes unreliable ref).toList := by
  unfold step observes
  cases ref.event.kind with
  | complete => rfl
  | insert =>
    simp only [onInsert, reduceCtorEq, if_false, toList_none, append_nil]
    split <;> rfl
  | issue =>
    simp only [onIssue, reduceCtorEq, if_false, toList_none, append_nil]
    split <;> rfl
  | requeue => exact (append_nil _).symm

theorem completions_run (unreliable : Bool) (refs : List EventRef) :
    (run (step unreliable) {} refs).out.completions =
      collect (step unreliable) (observes unreliable) {} refs :=
  run_appends (fun analyzer : Analyzer => analyzer.out.completions)
    (completions_step unreliable) {} refs

def loses (unreliable : Bool) (analyzer : Analyzer) (ref : EventRef) : Option EventRef :=
  if ref.event.kind = .complete then
    ((takenBy ref (analyzer.pending.listAt ref.key)).filter fun entry =>
      judge unreliable ref.event entry ≠ .matched).map (·.issue)
  else none

end Analyzer

variable (unreliable : Bool)

theorem completionRecord_observe (complete : EventRef) (pending : List Pending) :
    (observe unreliable complete pending).completionRecord = complete.event.recordId := by
  unfold observe
  split
  · rfl
  · dsimp only
    split <;> rfl
  · rfl

theorem observe_of_taken {entry : Pending} (taken : takenBy complete pending = some entry) :
    observe unreliable complete pending =
      if judge unreliable complete.event entry = .matched then
        matchedObservation complete.event entry
      else observation complete.event [entry] (judge unreliable complete.event entry) := by
  unfold observe
  rw [(takenBy_eq_some taken).1]

theorem observe_of_untaken (untaken : takenBy complete pending = none) :
    ∃ entries reason, observe unreliable complete pending =
      observation complete.event entries reason := by
  unfold observe takenBy at *
  split
  · exact ⟨_, _, rfl⟩
  · rename_i entry only
    rw [only] at untaken
    have different : entry.issue.sameRange complete = false := by
      simpa using untaken
    have touched : judge unreliable complete.event entry = .touched := by
      unfold judge
      rw [if_pos]
      simp only [Bool.or_eq_true, Bool.not_eq_true']
      exact Or.inr different
    rw [touched]
    exact ⟨_, _, rfl⟩
  · exact ⟨_, _, rfl⟩

/-- The completion got its issue timestamp from the only candidate, which has this id. -/
def BlockObservation.timedBy (recordId : U64) (observation : BlockObservation) : Bool :=
  observation.issueTimestampNs.isSome && observation.issueCandidates = [recordId]

namespace Analyzer

variable (unreliable : Bool)

theorem countP_step (analyzer : Analyzer) (ref : EventRef) (recordId : U64) :
    (analyzer.observes unreliable ref).toList.countP (·.timedBy recordId) +
        ((analyzer.loses unreliable ref).toList.map (·.event.recordId)).count recordId =
      ((analyzer.consumes ref).toList.map (·.1.event.recordId)).count recordId := by
  unfold observes loses consumes
  split
  · cases known : takenBy ref (analyzer.pending.listAt ref.key) with
    | none =>
      obtain ⟨entries, reason, untimed⟩ := observe_of_untaken unreliable known
      rw [untimed]
      rfl
    | some entry =>
      rw [observe_of_taken unreliable known]
      by_cases matched : judge unreliable ref.event entry = .matched
      · rw [if_pos matched]
        simp [matched, filter_some, count_singleton, BlockObservation.timedBy,
          matchedObservation, observation]
      · rw [if_neg matched]
        simp [matched, filter_some, BlockObservation.timedBy, observation]
  · rfl

theorem countP_consumption (start : Analyzer) (refs : List EventRef) (recordId : U64) :
    (collect (step unreliable) (observes unreliable) start refs).countP (·.timedBy recordId) +
        ((collect (step unreliable) (loses unreliable) start refs).map
          (·.event.recordId)).count recordId =
      ((collect (step unreliable) consumes start refs).map
        (·.1.event.recordId)).count recordId := by
  induction refs generalizing start with
  | nil => rfl
  | cons ref rest hypothesis =>
    have now := start.countP_step unreliable ref recordId
    have later := hypothesis (start.step unreliable ref)
    simp only [collect, countP_append, map_append, count_append]
    omega

/-- What the observations have of their completions is had of the completions in trace order. -/
theorem map_observed {Field : Type} {field : BlockObservation → Field} {own : BlockEvent → Field}
    (reads : ∀ complete pending, field (observe unreliable complete pending) = own complete.event)
    (start : Analyzer) (refs : List EventRef) :
    (collect (step unreliable) (observes unreliable) start refs).map field =
      (refs.filter (·.event.kind = .complete)).map fun ref => own ref.event := by
  induction refs generalizing start with
  | nil => rfl
  | cons ref rest hypothesis =>
    rw [collect, map_append, hypothesis, filter_cons, observes]
    by_cases complete : ref.event.kind = .complete
    · rw [if_pos complete, if_pos (decide_eq_true complete), map_cons]
      exact congrArg (· :: _) (reads ref _)
    · rw [if_neg complete, if_neg (by simp [complete])]
      rfl

end Analyzer

def consumption (trace : DecodedTrace) : List (EventRef × EventRef) :=
  collect (Analyzer.step trace.quality.compromised) Analyzer.consumes {} (eventRefs trace.events)

def insertConsumption (trace : DecodedTrace) : List EventRef :=
  collect (Analyzer.step trace.quality.compromised) Analyzer.consumesInsert {}
    (eventRefs trace.events)

variable (trace : DecodedTrace)

theorem perm_issues :
    ∃ listed : List EventRef,
      (analyze trace).unmatchedIssueRecords = listed.map (·.event.recordId) ∧
        ((consumption trace).map (·.1) ++ listed).Perm
          ((eventRefs trace.events).filter (·.event.kind = .issue)) := by
  have none_ : ({} : Analyzer).pending.records.map (·.issue) = [] := rfl
  obtain ⟨drained, listed, accounted⟩ := run_conserves
    (fun analyzer : Analyzer => analyzer.pending.records.map (·.issue))
    (fun analyzer => analyzer.out.unmatchedIssueRecords)
    (perm_pending_step trace.quality.compromised)
    (unmatched_step trace.quality.compromised) none_ rfl (eventRefs trace.events)
  refine ⟨drained ++ ((run (step trace.quality.compromised) {}
    (eventRefs trace.events)).pending.orderedValues RangeKey.le).flatten.map (·.issue), ?_, ?_⟩
  · rw [List.map_append, ← listed, List.map_map]
    rfl
  · rw [flatMap_arrives, collect_map] at accounted
    refine List.Perm.trans ?_ accounted
    rw [← append_assoc]
    refine perm_append_comm.trans (List.Perm.append_right _ ?_)
    exact ((perm_orderedValues _ _).flatten).map _

theorem perm_inserts :
    ∃ listed : List EventRef,
      (analyze trace).orphanInsertRecords = listed.map (·.event.recordId) ∧
        (insertConsumption trace ++ listed).Perm
          ((eventRefs trace.events).filter (·.event.kind = .insert)) := by
  have none_ : ({} : Analyzer).inserted.records = [] := rfl
  obtain ⟨drained, listed, accounted⟩ := run_conserves
    (fun analyzer : Analyzer => analyzer.inserted.records)
    (fun analyzer => analyzer.out.orphanInsertRecords)
    (perm_inserted_step trace.quality.compromised)
    (orphans_step trace.quality.compromised) none_ rfl (eventRefs trace.events)
  refine ⟨drained ++ ((run (step trace.quality.compromised) {}
    (eventRefs trace.events)).inserted.orderedValues RangeKey.le).flatten, ?_, ?_⟩
  · rw [map_append, ← listed]
    rfl
  · rw [flatMap_arrives] at accounted
    refine Perm.trans ?_ accounted
    rw [← append_assoc]
    refine perm_append_comm.trans (Perm.append_right _ ?_)
    exact (perm_orderedValues _ _).flatten

def lostIssues (trace : DecodedTrace) : List EventRef :=
  collect (Analyzer.step trace.quality.compromised) (Analyzer.loses trace.quality.compromised) {}
    (eventRefs trace.events)

theorem completions_analyze :
    (analyze trace).completions = collect (step trace.quality.compromised)
      (observes trace.quality.compromised) {} (eventRefs trace.events) :=
  completions_run trace.quality.compromised (eventRefs trace.events)

theorem map_event_eventRefs (events : List BlockEvent) :
    (eventRefs events).map (·.event) = events := by
  unfold eventRefs
  rw [List.map_map]
  exact List.zipIdx_map_fst 0 events

theorem filter_eventRefs (kind : BlockKind) (events : List BlockEvent) :
    ((eventRefs events).filter (·.event.kind = kind)).map (·.event) =
      events.filter (·.kind = kind) := by
  rw [← map_event_eventRefs events, List.filter_map, map_event_eventRefs]
  rfl

theorem count_recordId {events : List BlockEvent} (unique : (events.map (·.recordId)).Nodup)
    {event : BlockEvent} (member : event ∈ events) :
    (((eventRefs events).filter (·.event.kind = event.kind)).map
      (·.event.recordId)).count event.recordId = 1 := by
  have ids : ((eventRefs events).filter (·.event.kind = event.kind)).map (·.event.recordId) =
      (events.filter (·.kind = event.kind)).map (·.recordId) := by
    rw [← filter_eventRefs, List.map_map]
    rfl
  rw [ids]
  refine count_eq_one_of_mem (unique.sublist (filter_sublist.map _)) ?_
  exact mem_map_of_mem (mem_filter.mpr ⟨member, decide_eq_true rfl⟩)

theorem map_completions_analyze {Field : Type} {field : BlockObservation → Field}
    {own : BlockEvent → Field}
    (reads : ∀ unreliable complete pending,
      field (observe unreliable complete pending) = own complete.event) :
    (analyze trace).completions.map field =
      (trace.events.filter (·.kind = .complete)).map own := by
  rw [completions_analyze, map_observed _ (reads _), ← filter_eventRefs, List.map_map]
  rfl

theorem completionRecords_analyze :
    (analyze trace).completions.map (·.completionRecord) =
      (trace.events.filter (·.kind = .complete)).map (·.recordId) :=
  map_completions_analyze trace completionRecord_observe

theorem issue_accounted {trace : DecodedTrace} (unique : (trace.events.map (·.recordId)).Nodup)
    {event : BlockEvent} (member : event ∈ trace.events) (issue : event.kind = .issue) :
    (analyze trace).completions.countP (·.timedBy event.recordId) +
        ((lostIssues trace).map (·.event.recordId)).count event.recordId +
      (analyze trace).unmatchedIssueRecords.count event.recordId = 1 := by
  obtain ⟨listed, names, accounted⟩ := perm_issues trace
  have total := (accounted.map (·.event.recordId)).count_eq event.recordId
  rw [← issue, count_recordId unique member, List.map_append, List.count_append,
    ← names, List.map_map] at total
  have taken : (analyze trace).completions.countP (·.timedBy event.recordId) +
      ((lostIssues trace).map (·.event.recordId)).count event.recordId =
        ((consumption trace).map ((·.event.recordId) ∘ (·.1))).count event.recordId := by
    rw [completions_analyze]
    exact countP_consumption trace.quality.compromised {} _ event.recordId
  omega

/-- In a trace with unique record ids the completions are listed one for each completion and in
trace order, every insert is taken by one issue or listed once as an orphan, and an issue times
exactly one completion or is listed exactly once as unmatched, but not both, precisely unless a
completion took it without a time. -/
theorem records_are_accounted (trace : DecodedTrace)
    (unique : (trace.events.map (·.recordId)).Nodup) :
    (analyze trace).completions.map (·.completionRecord) =
        (trace.events.filter (·.kind = .complete)).map (·.recordId) ∧
      (∀ event ∈ trace.events, event.kind = .insert →
        ((insertConsumption trace).map (·.event.recordId)).count event.recordId +
          (analyze trace).orphanInsertRecords.count event.recordId = 1) ∧
      ∀ event ∈ trace.events, event.kind = .issue →
        ((analyze trace).completions.countP (·.timedBy event.recordId) +
            (analyze trace).unmatchedIssueRecords.count event.recordId = 1 ↔
          event.recordId ∉ (lostIssues trace).map (·.event.recordId)) := by
  refine ⟨?_, fun event member insert => ?_, fun event member issue => ?_⟩
  · exact completionRecords_analyze trace
  · obtain ⟨listed, names, accounted⟩ := perm_inserts trace
    have total := (accounted.map (·.event.recordId)).count_eq event.recordId
    rw [← insert, count_recordId unique member, map_append, count_append,
      ← names] at total
    exact total
  · have total := issue_accounted unique member issue
    rw [← count_eq_zero]
    omega

def pageEvent (recordId : U64) (kind : BlockKind) (timestampNs : U64) : BlockEvent where
  recordId := recordId
  kind := kind
  timestampNs := timestampNs
  cpu := none
  tid := some 11
  deviceEncoded := 2048
  sector := 2048
  sectors := 8
  bytes := 4096
  rwbs := "R"
  comm := some "reader"
  error := none
  clock := 0

theorem records_are_accounted_read :
    let trace : DecodedTrace := { events := [pageEvent 1 .insert 100, pageEvent 2 .issue 200,
      pageEvent 3 .complete 300, pageEvent 4 .issue 400] }
    (trace.events.map (·.recordId)).Nodup ∧
      (analyze trace).completions.map (·.completionRecord) = [3] ∧
      (lostIssues trace).map (·.event.recordId) = [] ∧
      ∀ event ∈ trace.events, event.kind = .issue →
        ((analyze trace).completions.countP (·.timedBy event.recordId) +
            (analyze trace).unmatchedIssueRecords.count event.recordId = 1 ↔
          event.recordId ∉ (lostIssues trace).map (·.event.recordId)) := by
  intro trace
  have unique : (trace.events.map (·.recordId)).Nodup := by decide
  obtain ⟨completions, -, issues⟩ := records_are_accounted trace unique
  exact ⟨unique, completions.trans (by decide), by decide +kernel, issues⟩

/-- A completion with the time of its issue takes the issue, which is then neither matched nor
listed as unmatched. -/
theorem issue_is_lost :
    let trace : DecodedTrace :=
      { events := [pageEvent 1 .issue 200, pageEvent 2 .complete 200] }
    (trace.events.map (·.recordId)).Nodup ∧
      (analyze trace).completions.countP (·.timedBy 1) = 0 ∧
      (analyze trace).unmatchedIssueRecords.count 1 = 0 := by
  decide +kernel

end EbpfStudio

/-
This file proves which filter a completion that is counted has passed.

A record that is remembered as issued is that of the last issue of its request (`LastIssue`), and
the issue has passed the filter that was active then. A completion is checked against no filter but
counted in the active generation, so it has passed this filter if the generation has not changed
since the issue.
-/

import EbpfStudio.Kernel.Capture
import EbpfStudio.Kernel.FilterMeaning

namespace EbpfStudio

open Run BlockKernel List Option BoundedTable FilterMaps

/-! ### Filters of other generations -/

namespace FilterMaps

def Consistent (maps : FilterMaps) : Prop :=
  ∀ generation config, maps.configs.lookup generation = some config →
    config.generation = generation

variable {changes : RawFilterConfig} {before after : FilterMaps}

theorem Consistent.of_changedOnly (consistent : before.Consistent)
    (changed : ChangedOnly changes before after) : after.Consistent := by
  intro generation config found
  rcases changed.configs generation with same | ⟨same, stored⟩
  · exact consistent generation config (same ▸ found)
  · rw [same]
    rw [stored] at found
    exact congrArg RawFilterConfig.generation (some.inj found).symm

def withActive (maps : FilterMaps) (generation : U64) : FilterMaps :=
  { maps with active := generation }

theorem generation_of_activeFilter {maps : FilterMaps} (consistent : maps.Consistent)
    {config : RawFilterConfig} (found : maps.activeFilter = some config) :
    config.generation = maps.active := by
  exact consistent _ config (ite_none_left_eq_some.mp found).2

theorem matchesFilter_of_changedOnly (changed : ChangedOnly changes before after)
    (consistent : before.Consistent) {generation : U64} (other : generation ≠ changes.generation)
    (pid tid uid device bytes : U32) (operation : U8) :
    (after.withActive generation).matchesFilter pid tid uid device bytes operation =
      (before.withActive generation).matchesFilter pid tid uid device bytes operation := by
  have sameConfig : (after.withActive generation).activeFilter =
      (before.withActive generation).activeFilter := by
    unfold activeFilter withActive
    rw [changed.lookup_of_ne other]
  unfold matchesFilter
  rw [sameConfig]
  cases found : (before.withActive generation).activeFilter with
  | none => rfl
  | some config =>
    have kept : (before.withActive generation).Consistent := consistent
    have ofGeneration : config.generation = generation := generation_of_activeFilter kept found
    have samePasses : ∀ dimension value,
        (after.withActive generation).passes config dimension value =
          (before.withActive generation).passes config dimension value := by
      intro dimension value
      unfold passes filterContains withActive
      rw [changed.keys dimension _ (ofGeneration ▸ other)]
    simp only [samePasses]

end FilterMaps

namespace BlockKernel

variable {cpus : Nat} {kernel : BlockKernel cpus}

theorem matchesStart_config (consistent : kernel.maps.Consistent) (start : BlockStart) :
    matchesStart (kernel.maps.withActive kernel.config.generation) start =
      matchesStart kernel.maps start := by
  unfold config
  cases found : kernel.maps.activeFilter with
  | none =>
    unfold matchesStart matchesFilter
    rw [found]
    rfl
  | some config =>
    rw [getD_some, generation_of_activeFilter consistent found]
    rfl

/-! ### Remembered requests -/

/-- The record of a request when it is issued. -/
def issuedStart (kernel : BlockKernel cpus) (probe : BlockProbe cpus) : BlockStart :=
  kernel.startOf probe
    ((kernel.starts.lookup probe.decoded.requestId).elim 0 (·.insertTsNs)) probe.tsNs

def Issues (requestId : U64) (probe : BlockProbe cpus) : Prop :=
  probe.decoded.kind = .issue ∧ probe.decoded.requestId = requestId

/-- A probe completes the request of an id. -/
def Completes (requestId : U64) (probe : BlockProbe cpus) : Prop :=
  probe.decoded.kind = .complete ∧ probe.decoded.requestId = requestId

section Remembered

variable {probe : BlockProbe cpus} {requestId : U64} {start : BlockStart}

theorem lookup_onInsert (found : (kernel.onInsert probe).starts.lookup requestId = some start) :
    kernel.starts.lookup requestId = some start ∨
      probe.decoded.requestId = requestId ∧ start = kernel.startOf probe probe.tsNs 0 := by
  dsimp only [onInsert] at found
  split at found
  · exact .inl found
  · cases stored : kernel.starts.insert probe.decoded.requestId
        (kernel.startOf probe probe.tsNs 0) with
    | none =>
      rw [stored] at found
      exact .inl found
    | some starts =>
      rw [stored, getD_some, lookup_of_insert stored] at found
      split at found
      · rename_i same
        exact .inr ⟨same.symm, (some.inj found).symm⟩
      · exact .inl found

theorem lookup_onIssue (found : (kernel.onIssue probe).starts.lookup requestId = some start) :
    kernel.starts.lookup requestId = some start ∧ probe.decoded.requestId ≠ requestId ∨
      probe.decoded.requestId = requestId ∧ start = kernel.issuedStart probe ∧
        matchesStart kernel.maps start = true := by
  dsimp only [onIssue] at found
  split at found
  · rw [lookup_erase] at found
    obtain ⟨other, earlier⟩ := ite_none_left_eq_some.mp found
    exact .inl ⟨earlier, Ne.symm other⟩
  · rename_i passed
    split at found
    · rename_i refused
      -- A request that is present is never refused, so the refused one is not remembered.
      refine .inl ⟨found, fun same => ?_⟩
      have absent := lookup_of_insert_eq_none refused
      rw [same, found] at absent
      cases absent
    · rename_i starts stored
      rw [lookup_of_insert stored] at found
      split at found
      · rename_i same
        cases found
        exact .inr ⟨same.symm, rfl, by simpa using passed⟩
      · rename_i other
        exact .inl ⟨found, Ne.symm other⟩

theorem lookup_onComplete
    (found : (kernel.onComplete probe).starts.lookup requestId = some start) :
    requestId ≠ probe.decoded.requestId ∧ kernel.starts.lookup requestId = some start := by
  have of_erase : (kernel.starts.erase probe.decoded.requestId).lookup requestId = some start →
      requestId ≠ probe.decoded.requestId ∧ kernel.starts.lookup requestId = some start := by
    intro kept
    rw [lookup_erase] at kept
    exact ite_none_left_eq_some.mp kept
  dsimp only [onComplete] at found
  split at found
  · rename_i absent
    refine ⟨fun same => ?_, found⟩
    rw [same, absent] at found
    cases found
  · split at found
    · exact of_erase found
    · split at found
      · exact of_erase found
      · exact of_erase found

section

variable (found : (kernel.processBlock probe).starts.lookup requestId = some start)
include found

theorem lookup_processBlock_startOf :
    kernel.starts.lookup requestId = some start ∧ ¬ Completes requestId probe ∨
      probe.decoded.requestId = requestId ∧
        ∃ insertTsNs issueTsNs, start = kernel.startOf probe insertTsNs issueTsNs := by
  unfold processBlock at found
  unfold Completes
  cases kind : probe.decoded.kind with
  | insert =>
    rw [kind] at found
    rcases lookup_onInsert found with earlier | ⟨same, record⟩
    · exact .inl ⟨earlier, fun both => (by cases both.1)⟩
    · exact .inr ⟨same, _, _, record⟩
  | issue =>
    rw [kind] at found
    rcases lookup_onIssue found with ⟨earlier, -⟩ | ⟨same, record, -⟩
    · exact .inl ⟨earlier, fun both => (by cases both.1)⟩
    · exact .inr ⟨same, _, _, record⟩
  | complete =>
    rw [kind] at found
    obtain ⟨other, earlier⟩ := lookup_onComplete found
    exact .inl ⟨earlier, fun both => other both.2.symm⟩

theorem lookup_processBlock (issued : start.issueTsNs ≠ 0) :
    kernel.starts.lookup requestId = some start ∧ ¬ Issues requestId probe ∨
      Issues requestId probe ∧ start = kernel.issuedStart probe ∧
        matchesStart kernel.maps start = true := by
  unfold processBlock at found
  unfold Issues
  cases kind : probe.decoded.kind with
  | insert =>
    rw [kind] at found
    rcases lookup_onInsert found with earlier | ⟨-, rfl⟩
    · exact .inl ⟨earlier, fun both => (by cases both.1)⟩
    · exact absurd rfl issued
  | issue =>
    rw [kind] at found
    rcases lookup_onIssue found with ⟨earlier, other⟩ | ⟨same, record⟩
    · exact .inl ⟨earlier, fun both => other both.2⟩
    · exact .inr ⟨⟨rfl, same⟩, record⟩
  | complete =>
    rw [kind] at found
    exact .inl ⟨(lookup_onComplete found).2, fun both => (by cases both.1)⟩

end

end Remembered

/-! ### Counted completions -/

/-- The record whose completion a probe counts. -/
def countedStart (kernel : BlockKernel cpus) (probe : BlockProbe cpus) : Option BlockStart :=
  match probe.decoded.kind with
  | .complete => (kernel.starts.lookup probe.decoded.requestId).filter fun start =>
      !(start.issueTsNs = 0 || probe.tsNs < start.issueTsNs)
  | _ => none

variable {probe : BlockProbe cpus}

theorem lookup_of_countedStart {start : BlockStart}
    (counted : kernel.countedStart probe = some start) :
    probe.decoded.kind = .complete ∧
      kernel.starts.lookup probe.decoded.requestId = some start ∧ start.issueTsNs ≠ 0 := by
  unfold countedStart at counted
  split at counted
  · rename_i completes
    obtain ⟨found, valid⟩ := filter_eq_some_iff.mp counted
    refine ⟨completes, found, fun unissued => ?_⟩
    rw [unissued] at valid
    cases valid
  · cases counted

def Aside (updates : List AggregateUpdate) : Prop :=
  ∀ update ∈ updates, update.accounts = false

theorem Aside.append {first second : List AggregateUpdate} (aside : Aside first)
    (other : Aside second) : Aside (first ++ second) :=
  forall_mem_append.mpr ⟨aside, other⟩

theorem Aside.completions {updates : List AggregateUpdate} (aside : Aside updates) :
    updates.countP AggregateUpdate.isCompletion = 0 := by
  refine countP_eq_zero.mpr fun update member counts => ?_
  have apart := aside update member
  cases update with
  | completion => cases apart
  | _ => cases counts

theorem aside_nil : Aside [] := List.forall_mem_nil _

theorem aside_single {update : AggregateUpdate} (apart : update.accounts = false) :
    Aside [update] :=
  forall_mem_singleton.mpr apart

theorem aside_submitEvents (room : Nat) (events : List KernelEvent) :
    Aside (submitEvents room events).1 := by
  unfold submitEvents
  split
  · exact aside_single rfl
  · exact aside_nil

section

variable (kernel : BlockKernel cpus) (probe : BlockProbe cpus)

theorem aside_report : Aside (kernel.report probe).1 := by
  unfold report
  split
  · exact aside_submitEvents _ _
  · exact aside_nil

theorem aside_onInsert : Aside (kernel.onInsert probe).updates := by
  dsimp only [onInsert]
  split
  · exact aside_single rfl
  · refine Aside.append ?_ (aside_report kernel probe)
    split
    · exact aside_single rfl
    · exact aside_nil

theorem aside_onIssue : Aside (kernel.onIssue probe).updates := by
  have reused : Aside (if (kernel.starts.lookup probe.decoded.requestId).any
      (·.issueTsNs ≠ 0) then [.keyReused] else []) := by
    split
    · exact aside_single rfl
    · exact aside_nil
  dsimp only [onIssue]
  split
  · exact aside_single rfl
  · split
    · exact reused.append (aside_single rfl)
    · have passed : Aside [.filterPassed] := aside_single rfl
      exact reused.append (passed.append (aside_report kernel probe))

end

def completionUpdate (probe : BlockProbe cpus) (start : BlockStart) : AggregateUpdate :=
  let latency := latencies start probe.tsNs
  .completion probe.tsNs start.bytes probe.decoded.status latency.1 latency.2.1 latency.2.2

variable (kernel : BlockKernel cpus)

theorem onComplete_cases (completes : probe.decoded.kind = .complete) :
    (kernel.countedStart probe = none ∧ (kernel.onComplete probe).updates = [.expired] ∧
      (kernel.onComplete probe).events = []) ∨
    ∃ start, kernel.countedStart probe = some start ∧
      (((kernel.onComplete probe).updates = [completionUpdate probe start, .suppressedFast] ∧
        (kernel.onComplete probe).events = []) ∨
      ∃ isSampled isForced, (kernel.onComplete probe).updates =
          [completionUpdate probe start, .detail isSampled isForced] ++
            (submitEvents probe.room (kernel.detailEvents probe start)).1 ∧
        (kernel.onComplete probe).events =
          (submitEvents probe.room (kernel.detailEvents probe start)).2) := by
  unfold countedStart
  rw [completes]
  dsimp only [onComplete]
  cases found : kernel.starts.lookup probe.decoded.requestId with
  | none => exact .inl ⟨rfl, rfl, rfl⟩
  | some start =>
    dsimp only
    rw [filter_some]
    cases (decide (start.issueTsNs = 0) || decide (probe.tsNs < start.issueTsNs)) with
    | true => exact .inl ⟨rfl, rfl, rfl⟩
    | false =>
      refine .inr ⟨start, rfl, ?_⟩
      rw [if_neg Bool.false_ne_true]
      split
      · exact .inr ⟨_, _, rfl, rfl⟩
      · exact .inl ⟨rfl, rfl⟩

end BlockKernel

/-- A probe has counted or reported something. -/
def ProbeEffect.Books (effect : ProbeEffect) : Prop :=
  effect.completions ≠ 0 ∨ effect.events ≠ []

theorem issued_of_books {cpus : Nat} {kernel : BlockKernel cpus} {probe : BlockProbe cpus}
    (completes : probe.decoded.kind = .complete) (books : (kernel.processBlock probe).Books) :
    ∃ start, kernel.starts.lookup probe.decoded.requestId = some start ∧
      start.issueTsNs ≠ 0 := by
  cases counted : kernel.countedStart probe with
  | some start =>
    obtain ⟨-, found, issued⟩ := lookup_of_countedStart counted
    exact ⟨start, found, issued⟩
  | none =>
    unfold processBlock at books
    rw [completes] at books
    rcases onComplete_cases kernel completes with ⟨-, updates, events⟩ | ⟨start, found, -⟩
    · unfold ProbeEffect.Books ProbeEffect.completions at books
      rw [updates, events] at books
      exact books.elim (absurd rfl) (absurd rfl)
    · rw [counted] at found
      cases found

/-! ### Runs -/

section Runs

variable {cpus : Nat}

/-- The kernel after a history. -/
def kernelAfter (collectorPid : U32) (sessionId : String) (history : List (CaptureStep cpus)) :
    BlockKernel cpus :=
  (run (Capture.step collectorPid sessionId) {} history).kernel

section

variable (collectorPid : U32) (sessionId : String) (history : List (CaptureStep cpus))
  {requestId : U64} {start : BlockStart}
  (found : (kernelAfter collectorPid sessionId history).starts.lookup requestId = some start)

include found

/-- A remembered request was remembered at a probe of its id that no completion of the id
follows. -/
theorem startOf_run :
    ∃ before probe after insertTsNs issueTsNs, history = before ++ .probe probe :: after ∧
      (∀ later, .probe later ∈ after → ¬ Completes requestId later) ∧
      probe.decoded.requestId = requestId ∧
      start = (kernelAfter collectorPid sessionId before).startOf probe insertTsNs issueTsNs := by
  induction history using reverseRecOn with
  | nil => cases found
  | append_singleton history step hypothesis =>
    unfold kernelAfter at found hypothesis
    rw [run_snoc] at found
    have kept (earlier : (kernelAfter collectorPid sessionId history).starts.lookup requestId =
        some start) (goesOn : ∀ later, step = .probe later → ¬ Completes requestId later) :
        ∃ before probe after insertTsNs issueTsNs,
          history ++ [step] = before ++ .probe probe :: after ∧
          (∀ later, .probe later ∈ after → ¬ Completes requestId later) ∧
          probe.decoded.requestId = requestId ∧
          start = (kernelAfter collectorPid sessionId before).startOf probe insertTsNs
            issueTsNs := by
      obtain ⟨before, probe, after, insertTsNs, issueTsNs, split, outstanding, record⟩ :=
        hypothesis earlier
      refine ⟨before, probe, after ++ [step], insertTsNs, issueTsNs,
        append_eq_of_split split _, fun later member => ?_, record⟩
      rcases mem_append.mp member with old | last
      · exact outstanding later old
      · exact goesOn later (mem_singleton.mp last).symm
    cases step with
    | apply config fails => exact kept found nofun
    | read => exact kept found nofun
    | probe probe =>
      rcases lookup_processBlock_startOf found with
        ⟨earlier, other⟩ | ⟨same, insertTsNs, issueTsNs, record⟩
      · refine kept earlier ?_
        rintro _ ⟨⟩
        exact other
      · exact ⟨history, probe, [], insertTsNs, issueTsNs, rfl,
          fun _ member => absurd member not_mem_nil, same, record⟩

theorem requestId_run : start.requestId = requestId := by
  obtain ⟨_, probe, _, _, _, -, -, same, rfl⟩ := startOf_run collectorPid sessionId history found
  exact same

end

/-- Where a history issues a request last. -/
structure LastIssue (history : List (CaptureStep cpus)) (requestId : U64)
    (before : List (CaptureStep cpus)) (issue : BlockProbe cpus)
    (between : List (CaptureStep cpus)) : Prop where
  split : history = before ++ .probe issue :: between
  issues : Issues requestId issue
  last : ∀ other, .probe other ∈ between → ¬ Issues requestId other

/-- What is known of a request that is remembered as issued: its record is that of its last
issue, and it has passed the filter that was active then. It still passes it if the generation
was not tried again. -/
def Remembered (collectorPid : U32) (sessionId : String) (history : List (CaptureStep cpus))
    (kernel : BlockKernel cpus) (requestId : U64) (start : BlockStart) : Prop :=
  ∃ before issue between, LastIssue history requestId before issue between ∧
    start = (kernelAfter collectorPid sessionId before).issuedStart issue ∧
    ((∀ step ∈ between, step.triedGeneration ≠
        some (kernelAfter collectorPid sessionId before).config.generation) →
      matchesStart (kernel.maps.withActive
        (kernelAfter collectorPid sessionId before).config.generation) start = true)

variable {collectorPid : U32} {sessionId : String} {step : CaptureStep cpus}

theorem LastIssue.snoc {history before between : List (CaptureStep cpus)} {requestId : U64}
    {issue : BlockProbe cpus} (isLast : LastIssue history requestId before issue between)
    (other : ∀ probe, step = .probe probe → ¬ Issues requestId probe) :
    LastIssue (history ++ [step]) requestId before issue (between ++ [step]) where
  split := append_eq_of_split isLast.split _
  issues := isLast.issues
  last := by
    intro probe member
    rcases mem_append.mp member with earlier | now
    · exact isLast.last probe earlier
    · exact other probe (mem_singleton.mp now).symm

variable {history : List (CaptureStep cpus)}

theorem Remembered.snoc {before after : BlockKernel cpus} {requestId : U64} {start : BlockStart}
    (remembered : Remembered collectorPid sessionId history before requestId start)
    (other : ∀ probe, step = .probe probe → ¬ Issues requestId probe)
    (keeps : ∀ generation, step.triedGeneration ≠ some generation →
      matchesStart (after.maps.withActive generation) start =
      matchesStart (before.maps.withActive generation) start) :
    Remembered collectorPid sessionId (history ++ [step]) after requestId start := by
  obtain ⟨earlier, issue, between, isLast, record, passes⟩ := remembered
  refine ⟨earlier, issue, between ++ [step], isLast.snoc other, record, fun untried => ?_⟩
  rw [keeps _ (untried step (mem_append_right _ (mem_singleton_self step)))]
  exact passes fun earlierStep member => untried earlierStep (mem_append_left _ member)

structure Traceable (collectorPid : U32) (sessionId : String) (history : List (CaptureStep cpus))
    (kernel : BlockKernel cpus) : Prop where
  consistent : kernel.maps.Consistent
  remembered : ∀ requestId start, kernel.starts.lookup requestId = some start →
    start.issueTsNs ≠ 0 → Remembered collectorPid sessionId history kernel requestId start

theorem Traceable.apply {kernel : BlockKernel cpus}
    (traceable : Traceable collectorPid sessionId history kernel) (config : CaptureConfig)
    (fails : Nat → Bool) :
    Traceable collectorPid sessionId (history ++ [.apply config fails])
      { kernel with maps := (kernel.maps.apply collectorPid fails config).1 } := by
  have changed := (apply_cases collectorPid fails kernel.maps config).1
  refine ⟨traceable.consistent.of_changedOnly changed, fun requestId start found issued => ?_⟩
  refine (traceable.remembered requestId start found issued).snoc
    (fun probe same => (by cases same)) fun generation untried => ?_
  have other : generation ≠ (rawFilterConfig collectorPid config).generation :=
    fun same => untried (congrArg some same.symm)
  exact matchesFilter_of_changedOnly changed traceable.consistent other ..

theorem Traceable.probe
    (traceable : Traceable collectorPid sessionId history
      (kernelAfter collectorPid sessionId history)) (probe : BlockProbe cpus) :
    Traceable collectorPid sessionId (history ++ [.probe probe])
      ((kernelAfter collectorPid sessionId history).afterProbe probe) := by
  refine ⟨traceable.consistent, fun requestId start found issued => ?_⟩
  rcases lookup_processBlock found issued with ⟨earlier, other⟩ | ⟨issues, record, passed⟩
  · refine (traceable.remembered requestId start earlier issued).snoc ?_ fun _ _ => rfl
    rintro _ ⟨⟩
    exact other
  · refine ⟨history, probe, [], ⟨rfl, issues, fun _ member => absurd member not_mem_nil⟩,
      record, fun _ => ?_⟩
    exact (matchesStart_config traceable.consistent start).trans passed

theorem traceable_run (collectorPid : U32) (sessionId : String)
    (history : List (CaptureStep cpus)) :
    Traceable collectorPid sessionId history (kernelAfter collectorPid sessionId history) := by
  refine run_induction (fun history (capture : Capture cpus) =>
    Traceable collectorPid sessionId history capture.kernel) ?_ ?_ history
  · exact ⟨fun _ _ found => (by cases found), fun _ _ found => (by cases found)⟩
  · intro history step traceable
    cases step with
    | apply config fails => exact traceable.apply config fails
    | probe probe => exact traceable.probe probe
    | read =>
      refine ⟨traceable.consistent, fun requestId start found issued => ?_⟩
      exact (traceable.remembered requestId start found issued).snoc
        (fun probe same => (by cases same)) fun _ _ => rfl

end Runs

/-- In every run of attempts to apply a configuration, probes and reads, a completion that is
counted or reported belongs to a request whose last issue passes the filter that is active at the
completion, provided that the same generation was active at the issue and has not been tried
again since. -/
theorem booked_completion_passes_filter {cpus : Nat} (collectorPid : U32) (sessionId : String)
    (history : List (CaptureStep cpus)) (probe : BlockProbe cpus)
    (completes : probe.decoded.kind = .complete)
    (books : ((kernelAfter collectorPid sessionId history).processBlock probe).Books)
    (unswitched : ∀ before issue between,
      LastIssue history probe.decoded.requestId before issue between →
      (kernelAfter collectorPid sessionId before).config.generation =
          (kernelAfter collectorPid sessionId history).config.generation ∧
        ∀ step ∈ between, step.triedGeneration ≠
          some (kernelAfter collectorPid sessionId history).config.generation) :
    ∃ before issue between, LastIssue history probe.decoded.requestId before issue between ∧
      (kernelAfter collectorPid sessionId history).starts.lookup probe.decoded.requestId =
        some ((kernelAfter collectorPid sessionId before).issuedStart issue) ∧
      matchesStart (kernelAfter collectorPid sessionId history).maps
        ((kernelAfter collectorPid sessionId before).issuedStart issue) = true := by
  have traceable := traceable_run collectorPid sessionId history
  obtain ⟨start, found, issued⟩ := issued_of_books completes books
  obtain ⟨before, issue, between, isLast, rfl, passes⟩ := traceable.remembered _ start found issued
  obtain ⟨sameGeneration, untried⟩ := unswitched before issue between isLast
  refine ⟨before, issue, between, isLast, found, ?_⟩
  rw [sameGeneration] at passes
  exact (matchesStart_config traceable.consistent _).symm.trans (passes untried)

def probeBy (kind : BlockProbeKind) (pid : U32) (tsNs : U64) : BlockProbe 1 where
  decoded :=
    { kind := kind, device := 0x800000, sector := 0, sectors := 8, bytes := 4096,
      operation := operationCode .read, requestId := 5, correlationExact := true, status := 0 }
  pid := pid
  tid := pid
  uid := 10_001
  comm := []
  tsNs := tsNs
  cpu := 0
  stackId := none
  room := 4

theorem booked_completion_passes_filter_pid :
    let history : List (CaptureStep 1) :=
      [.apply (pidConfig 1 [10]) fun _ => false, .probe (probeBy .issue 10 100)]
    ∃ before issue between, LastIssue history 5 before issue between ∧
      (kernelAfter 7 "s" history).starts.lookup 5 =
        some ((kernelAfter 7 "s" before).issuedStart issue) ∧
      matchesStart (kernelAfter 7 "s" history).maps
        ((kernelAfter 7 "s" before).issuedStart issue) = true := by
  intro history
  refine booked_completion_passes_filter 7 "s" history (probeBy .complete 0 200) rfl ?_ ?_
  · refine .inl ?_
    decide +kernel
  · rintro before issue between ⟨split, issues, last⟩
    -- The history has two places, and only the second one holds a probe.
    match before, split with
    | [], split => cases (cons.inj split).1
    | [_], split =>
      obtain ⟨rfl, rest⟩ := cons.inj split
      cases (cons.inj rest).2
      exact ⟨by decide +kernel, fun _ member => absurd member not_mem_nil⟩
    | _ :: _ :: before, split =>
      have lengths := congrArg length split
      simp [history] at lengths

/-- Process 10 issues a request while generation 1 watches it. Generation 2, which watches only
process 20, is applied before the request completes, and the completion is counted under it. -/
theorem switched_completion_is_counted :
    let history : List (CaptureStep 1) :=
      [.apply (pidConfig 1 [10]) fun _ => false, .probe (probeBy .issue 10 100),
        .apply (pidConfig 2 [20]) fun _ => false]
    let kernel := kernelAfter 7 "s" history
    kernel.config.generation = 2 ∧
      (kernel.processBlock (probeBy .complete 0 200)).completions = 1 ∧
      (kernel.starts.lookup 5).map (·.pid) = some 10 ∧
      (kernel.starts.lookup 5).map (matchesStart kernel.maps) = some false ∧
      ((kernel.afterProbe (probeBy .complete 0 200)).aggregates 0).counters.observed = 1 ∧
      ((kernel.afterProbe (probeBy .complete 0 200)).aggregates 0).generation = 2 := by
  decide +kernel

end EbpfStudio

/-
This file relates the latencies that the host computes from the ring buffer to those that the kernel
has counted.

The ids are scrambled on the way, which can be undone (`opaqueKey_bijective`). In the balanced mode
the records of a request come together when it completes, and a report may be cut short.
`AnswersMatch` says that no insert is left waiting at the host, so that no report is joined with an
earlier one.
-/

import EbpfStudio.Kernel.Isolation
import EbpfStudio.Library.Mixing

namespace EbpfStudio

open Run BlockKernel List Option Word RequestCorrelator

/-! ### The agent -/

/-- The id that the host sees. -/
def opaqueKey (raw salt : U64) : U64 :=
  let value := Word.xorShift 33 (raw.xor salt)
  let value := Word.xorShift 33 (value.wrappingMul 0xff51afd7ed558ccd)
  Word.xorShift 33 (value.wrappingMul 0xc4ceb9fe1a85ec53)

/-- The mixing steps can be undone one by one, so no two kernel values share a key. -/
theorem opaqueKey_bijective (salt : U64) : Function.Bijective fun raw => opaqueKey raw salt := by
  have salted : Function.Injective fun raw : U64 => raw.xor salt := by
    refine Function.LeftInverse.injective (g := fun value => value.xor salt) fun raw => ?_
    have undone : BitVec.ofFin raw ^^^ BitVec.ofFin salt ^^^ BitVec.ofFin salt =
        BitVec.ofFin raw := by
      rw [BitVec.xor_assoc, BitVec.xor_self, BitVec.xor_zero]
    exact congrArg BitVec.toFin undone
  have shift : Function.Injective fun value : U64 => xorShift 33 value :=
    xorShift_injective (by decide)
  have first := wrappingMul_injective (show BitVec.ofFin (0xff51afd7ed558ccd : U64) *
    BitVec.ofFin (0x4f74430c22a54005 : U64) = BitVec.ofNat 64 1 by decide)
  have second := wrappingMul_injective (show BitVec.ofFin (0xc4ceb9fe1a85ec53 : U64) *
    BitVec.ofFin (0x9cb4b2f8129337db : U64) = BitVec.ofNat 64 1 by decide)
  have finite : Finite U64 := Finite.intro (Equiv.refl (Fin (2 ^ 64)))
  exact Finite.injective_iff_bijective.mp
    (shift.comp (second.comp (shift.comp (first.comp (shift.comp salted)))))

def operationOfCode (value : U8) : IoOperation :=
  if value = operationCode .read then .read
  else if value = operationCode .write then .write
  else if value = operationCode .flush then .flush
  else if value = operationCode .discard then .discard
  else .other

section Host

variable (decodeComm : List U8 → String) (salt : U64)

def blockInsertOf (event : KernelEvent) : BlockInsert where
  tsNs := event.tsNs
  requestId := opaqueKey event.requestId salt
  deviceMajor := (kernelDevice event.device).1
  deviceMinor := (kernelDevice event.device).2
  sector := event.sector
  sectors := event.sectors
  bytes := event.bytes
  operation := operationOfCode event.operation

def blockIssueOf (event : KernelEvent) : BlockIssue where
  tsNs := event.tsNs
  requestId := opaqueKey event.requestId salt
  deviceMajor := (kernelDevice event.device).1
  deviceMinor := (kernelDevice event.device).2
  sector := event.sector
  sectors := event.sectors
  bytes := event.bytes
  operation := operationOfCode event.operation
  pid := event.pid
  tid := event.tid
  cpu := event.cpu
  comm := decodeComm event.comm

def blockCompleteOf (event : KernelEvent) : BlockComplete where
  cpu := some event.cpu
  tsNs := event.tsNs
  requestId := opaqueKey event.requestId salt
  deviceMajor := (kernelDevice event.device).1
  deviceMinor := (kernelDevice event.device).2
  status := event.status

def parseKernelEvent (event : KernelEvent) : StorageEvent :=
  match event.kind with
  | .insert => .blockInsert (blockInsertOf salt event)
  | .issue => .blockIssue (blockIssueOf decodeComm salt event)
  | .complete => .blockComplete (blockCompleteOf salt event)

/-! ### The host -/

def hostIngest (host : RequestCorrelator) (event : KernelEvent) :
    RequestCorrelator × Option CompletedIo :=
  match parseKernelEvent decodeComm salt event with
  | .blockInsert insert => (host.onInsert insert, none)
  | .blockIssue issue => ((host.onIssue issue).1, none)
  | .blockComplete completion => host.onComplete completion
  | _ => (host, none)

def hostStep (host : RequestCorrelator) (event : KernelEvent) : RequestCorrelator :=
  (hostIngest decodeComm salt host event).1

/-- The requests that the host completes. -/
def hostOutputs (host : RequestCorrelator) (events : List KernelEvent) : List CompletedIo :=
  collect (hostStep decodeComm salt) (fun host event => (hostIngest decodeComm salt host event).2)
    host events

end Host

/-! ### Records of one completion -/

def RequestCorrelator.Clear (host : RequestCorrelator) : Prop :=
  ∀ key, host.inserted.lookup key = none

/-- What the host needs to see the latencies of a completion as the kernel does: its report does
not stop after the insert, its device is the one of its issue, and the insert comes before the
issue and has not expired by then. -/
structure Faithful {cpus : Nat} (ttlNs : U64) (probe : BlockProbe cpus) (start : BlockStart) :
    Prop where
  whole : start.insertTsNs ≠ 0 → probe.room ≠ 1
  sameDevice : start.device = probe.decoded.device
  ordered : start.insertTsNs ≤ start.issueTsNs
  live : start.insertTsNs ≠ 0 → start.issueTsNs.saturatingSub start.insertTsNs.val ≤ ttlNs

/-- The latencies of an answer are those that the kernel counts. A queue latency that was not
observed is absent. -/
structure SameLatencies (io : CompletedIo) (start : BlockStart) (tsNs : U64) : Prop where
  total : io.totalLatencyNs = some (latencies start tsNs).1
  queue : io.queueLatencyNs =
    if start.insertTsNs = 0 then none else some (latencies start tsNs).2.1
  device : io.deviceLatencyNs = some (latencies start tsNs).2.2

section Completion

variable {cpus : Nat} {decodeComm : List U8 → String} {salt : U64} {host : RequestCorrelator}
  {start : BlockStart}

def afterInsert (salt : U64) (host : RequestCorrelator) (start : BlockStart) :
    RequestCorrelator :=
  if start.insertTsNs = 0 then host
  else host.onInsert (blockInsertOf salt (blockEventFromStart start .insert))

def afterIssue (decodeComm : List U8 → String) (salt : U64) (host : RequestCorrelator)
    (start : BlockStart) : RequestCorrelator :=
  ((afterInsert salt host start).onIssue
    (blockIssueOf decodeComm salt (blockEventFromStart start .issue))).1

theorem ttlNs_afterInsert : (afterInsert salt host start).ttlNs = host.ttlNs := by
  unfold afterInsert
  split
  · rfl
  · unfold RequestCorrelator.onInsert
    dsimp only
    split <;> rfl

def startKey (salt : U64) (start : BlockStart) : RequestKey :=
  RequestKey.insert (blockInsertOf salt (blockEventFromStart start .insert))

theorem inserted_afterInsert (clear : host.Clear) (key : RequestKey) :
    (afterInsert salt host start).inserted.lookup key =
      if start.insertTsNs ≠ 0 ∧ key = startKey salt start then
        some (blockInsertOf salt (blockEventFromStart start .insert))
      else none := by
  unfold afterInsert
  by_cases inserted : start.insertTsNs = 0
  · rw [if_pos inserted, if_neg fun both => both.1 inserted]
    exact clear key
  · rw [if_neg inserted]
    refine (onInsert_inserted ..).trans ?_
    by_cases same : key = startKey salt start
    · exact (if_pos same).trans (if_pos ⟨inserted, same⟩).symm
    · refine (if_neg same).trans (Eq.trans ?_ (if_neg fun both => same both.2).symm)
      exact inserted_expireBefore_eq_none (clear key) _

theorem clear_afterIssue (clear : host.Clear) :
    (afterIssue decodeComm salt host start).Clear := by
  intro key
  unfold afterIssue RequestCorrelator.onIssue
  rw [RequestCorrelator.onIssueClassified_inserted]
  split
  · rfl
  · rename_i other
    refine RequestCorrelator.inserted_expireBefore_eq_none ?_ _
    rw [inserted_afterInsert clear]
    exact if_neg fun both => other both.2

theorem pending_afterIssue (clear : host.Clear)
    (live : start.insertTsNs ≠ 0 →
      start.issueTsNs.saturatingSub start.insertTsNs.val ≤ host.ttlNs)
    {request : PendingRequest}
    (found : (afterIssue decodeComm salt host start).pending.lookup (startKey salt start) =
      some request) :
    request.issue.tsNs = start.issueTsNs ∧
      request.insert.map (·.tsNs) =
        if start.insertTsNs = 0 then none else some start.insertTsNs := by
  have sameKey : RequestKey.issue (blockIssueOf decodeComm salt
      (blockEventFromStart start .issue)) = startKey salt start := rfl
  rw [← sameKey] at found
  obtain ⟨sameIssue, sameInsert⟩ := RequestCorrelator.insert_of_onIssueClassified found
  refine ⟨by rw [sameIssue]; rfl, ?_⟩
  rw [sameInsert, sameKey, RequestCorrelator.expireBefore_inserted, inserted_afterInsert clear]
  by_cases inserted : start.insertTsNs = 0
  · rw [if_pos inserted, if_neg fun both => both.1 inserted]
    rfl
  · have alive : (afterInsert salt host start).live start.issueTsNs start.insertTsNs = true := by
      unfold RequestCorrelator.live
      rw [ttlNs_afterInsert]
      exact decide_eq_true (live inserted)
    rw [if_neg inserted, if_pos ⟨inserted, rfl⟩, Option.filter_some]
    exact congrArg (Option.map BlockInsert.tsNs) (if_pos alive)

variable {kernel : BlockKernel cpus}

section

variable {probe : BlockProbe cpus} (clear : host.Clear) (faithful : Faithful host.ttlNs probe start)
  (sameId : start.requestId = probe.decoded.requestId) {io : CompletedIo}
  (answered : ((afterIssue decodeComm salt host start).onComplete
      (blockCompleteOf salt (kernel.eventOf probe))).2 = some io)

include clear faithful sameId answered

theorem times_of_answer :
    start.issueTsNs ≤ probe.tsNs ∧ io.issue.tsNs = start.issueTsNs ∧
      io.insert.map (·.tsNs) = if start.insertTsNs = 0 then none else some start.insertTsNs := by
  have sameKey : RequestKey.complete (blockCompleteOf salt (kernel.eventOf probe)) =
      startKey salt start := by
    unfold RequestKey.complete startKey RequestKey.insert blockCompleteOf blockInsertOf
    dsimp only [BlockKernel.eventOf, blockEventFromStart]
    rw [sameId, faithful.sameDevice]
  obtain ⟨request, found, -, issue, insert, -, -, after⟩ :=
    RequestCorrelator.onComplete_eq_some answered
  rw [sameKey] at found
  obtain ⟨issueTime, insertTime⟩ := pending_afterIssue clear faithful.live
    (RequestCorrelator.pending_of_expireBefore found)
  rw [issueTime] at after
  rw [issue, insert]
  exact ⟨after, issueTime, insertTime⟩

theorem sameLatencies_of_answer : SameLatencies io start probe.tsNs := by
  obtain ⟨after, issueTime, insertTime⟩ := times_of_answer clear faithful sameId answered
  obtain ⟨-, device, checked, isDevice, isQueue, isTotal⟩ :=
    latencies_of_onComplete answered
  have completion : (blockCompleteOf salt (kernel.eventOf probe)).tsNs = probe.tsNs := rfl
  rw [completion, issueTime] at checked
  rw [issueTime] at isQueue
  rw [completion] at isTotal
  obtain rfl := (checkedSub_eq_some.mp checked).2
  by_cases inserted : start.insertTsNs = 0
  · rw [if_pos inserted, map_eq_none_iff] at insertTime
    rw [insertTime] at isQueue isTotal
    have counted : latencies start probe.tsNs =
        (probe.tsNs.saturatingSub start.issueTsNs.val, 0,
          probe.tsNs.saturatingSub start.issueTsNs.val) := if_pos inserted
    constructor <;> rw [counted]
    · exact isTotal
    · rw [if_pos inserted]
      exact isQueue
    · exact isDevice
  · rw [if_neg inserted] at insertTime
    obtain ⟨record, isInsert, time⟩ := map_eq_some_iff.mp insertTime
    rw [isInsert, bind_some, time] at isQueue isTotal
    have queued := checkedSub_eq_some.mpr ⟨faithful.ordered, rfl⟩
    have whole := checkedSub_eq_some.mpr ⟨faithful.ordered.trans after, rfl⟩
    rw [queued] at isQueue
    rw [whole, getD_some] at isTotal
    have counted : latencies start probe.tsNs =
        (probe.tsNs.saturatingSub start.insertTsNs.val,
          start.issueTsNs.saturatingSub start.insertTsNs.val,
          probe.tsNs.saturatingSub start.issueTsNs.val) := if_neg inserted
    constructor <;> rw [counted]
    · exact isTotal
    · rw [if_neg inserted]
      exact isQueue
    · exact isDevice

end

def recordsBefore (start : BlockStart) : List KernelEvent :=
  (if start.insertTsNs ≠ 0 then [blockEventFromStart start .insert] else []) ++
    [blockEventFromStart start .issue]

theorem run_recordsBefore (decodeComm : List U8 → String) (salt : U64) (host : RequestCorrelator)
    (start : BlockStart) :
    run (hostStep decodeComm salt) host (recordsBefore start) =
        afterIssue decodeComm salt host start ∧
      hostOutputs decodeComm salt host (recordsBefore start) = [] := by
  unfold recordsBefore afterIssue afterInsert
  by_cases inserted : start.insertTsNs = 0
  · rw [if_neg (not_not.mpr inserted), if_pos inserted]
    exact ⟨rfl, rfl⟩
  · rw [if_pos inserted, if_neg inserted]
    exact ⟨rfl, rfl⟩

theorem take_records {probe : BlockProbe cpus} (event : KernelEvent)
    (whole : start.insertTsNs ≠ 0 → probe.room ≠ 1) :
    (recordsBefore start ++ [event]).take probe.room = [] ∨
      (recordsBefore start ++ [event]).take probe.room = recordsBefore start ∨
      (recordsBefore start ++ [event]).take probe.room = recordsBefore start ++ [event] := by
  unfold recordsBefore
  by_cases inserted : start.insertTsNs = 0
  · rw [if_neg (not_not.mpr inserted)]
    match probe.room with
    | 0 => exact .inl rfl
    | 1 => exact .inr (.inl rfl)
    | room + 2 => exact .inr (.inr (by simp))
  · rw [if_pos inserted]
    have notOne := whole inserted
    match room : probe.room with
    | 0 => exact .inl rfl
    | 1 => exact absurd room notOne
    | 2 => exact .inr (.inl rfl)
    | room + 3 => exact .inr (.inr (by simp))

theorem ttlNs_hostStep (event : KernelEvent) :
    (hostStep decodeComm salt host event).ttlNs = host.ttlNs := by
  unfold hostStep hostIngest parseKernelEvent
  cases event.kind with
  | insert =>
    dsimp only [RequestCorrelator.onInsert]
    split <;> rfl
  | issue =>
    dsimp only [RequestCorrelator.onIssue, RequestCorrelator.onIssueClassified]
    split <;> rfl
  | complete =>
    dsimp only [RequestCorrelator.onComplete]
    split
    · rfl
    · split <;> rfl

theorem ttlNs_run (events : List KernelEvent) :
    (run (hostStep decodeComm salt) host events).ttlNs = host.ttlNs := by
  refine run_induction (fun _ (reached : RequestCorrelator) => reached.ttlNs = host.ttlNs) rfl
    (fun history event same => ?_) events
  rw [ttlNs_hostStep, same]

theorem hostIngest_complete {event : KernelEvent} (completes : event.kind = .complete) :
    hostIngest decodeComm salt host event = host.onComplete (blockCompleteOf salt event) := by
  unfold hostIngest parseKernelEvent
  rw [completes]

theorem host_reads_records (kernel : BlockKernel cpus) {probe : BlockProbe cpus}
    (clear : host.Clear) (faithful : Faithful host.ttlNs probe start)
    (sameId : start.requestId = probe.decoded.requestId)
    (completes : probe.decoded.kind = .complete) :
    let records := (recordsBefore start ++ [kernel.eventOf probe]).take probe.room
    (run (hostStep decodeComm salt) host records).Clear ∧
      ∀ io ∈ hostOutputs decodeComm salt host records,
        io.completion = blockCompleteOf salt (kernel.eventOf probe) ∧
          SameLatencies io start probe.tsNs := by
  intro records
  have clearIssue : (afterIssue decodeComm salt host start).Clear := clear_afterIssue clear
  obtain ⟨reached, silent⟩ := run_recordsBefore decodeComm salt host start
  rcases take_records (kernel.eventOf probe) faithful.whole with none_ | before | all
  · rw [show records = [] from none_]
    exact ⟨clear, fun io member => absurd member not_mem_nil⟩
  · rw [show records = recordsBefore start from before, reached, silent]
    exact ⟨clearIssue, fun io member => absurd member not_mem_nil⟩
  · have answers : hostIngest decodeComm salt (afterIssue decodeComm salt host start)
        (kernel.eventOf probe) = (afterIssue decodeComm salt host start).onComplete
          (blockCompleteOf salt (kernel.eventOf probe)) := hostIngest_complete completes
    rw [show records = recordsBefore start ++ [kernel.eventOf probe] from all, run_snoc, reached]
    constructor
    · intro key
      unfold hostStep
      rw [answers, RequestCorrelator.onComplete_inserted]
      exact RequestCorrelator.inserted_expireBefore_eq_none (clearIssue key) _
    · intro io member
      unfold hostOutputs at member silent
      rw [collect_snoc, silent, reached, nil_append, mem_toList, answers] at member
      exact ⟨(RequestCorrelator.latencies_of_onComplete member).1,
        sameLatencies_of_answer clear faithful sameId member⟩

end Completion

/-! ### Runs -/

namespace BlockKernel

variable {cpus : Nat} {kernel : BlockKernel cpus} {probe : BlockProbe cpus}

theorem events_balanced (balanced : kernel.config.mode = captureModeCode .balanced) :
    (kernel.processBlock probe).events = [] ∨
      ∃ start, kernel.countedStart probe = some start ∧
        (kernel.processBlock probe).events =
          (recordsBefore start ++ [kernel.eventOf probe]).take probe.room := by
  have quiet : kernel.report probe = ([], []) := by
    unfold report RawFilterConfig.reportsAll
    rw [balanced]
    rfl
  unfold processBlock
  cases kind : probe.decoded.kind with
  | insert =>
    dsimp only [onInsert]
    rw [quiet]
    split <;> exact .inl rfl
  | issue =>
    dsimp only [onIssue]
    rw [quiet]
    split
    · exact .inl rfl
    · split <;> exact .inl rfl
  | complete =>
    rcases onComplete_cases kernel kind with ⟨-, -, none_⟩ | ⟨start, counted, effect⟩
    · exact .inl none_
    · rcases effect with ⟨-, none_⟩ | ⟨_, _, -, events⟩
      · exact .inl none_
      · refine .inr ⟨start, counted, events.trans ?_⟩
        unfold submitEvents detailEvents recordsBefore
        dsimp only
        rw [balanced, if_neg (by decide), if_pos rfl, append_assoc]
        rfl

end BlockKernel

def Capture.eventsOf {cpus : Nat} (capture : Capture cpus) : CaptureStep cpus → List KernelEvent
  | .probe probe => (capture.kernel.processBlock probe).events
  | _ => []

section Runs

variable {cpus : Nat}

/-- The records that a history reports. -/
def ringOf (collectorPid : U32) (sessionId : String) (steps : List (CaptureStep cpus)) :
    List KernelEvent :=
  (collect (Capture.step collectorPid sessionId)
    (fun capture step => some (capture.eventsOf step)) {} steps).flatten

theorem ringOf_snoc (collectorPid : U32) (sessionId : String)
    (history : List (CaptureStep cpus)) (step : CaptureStep cpus) :
    ringOf collectorPid sessionId (history ++ [step]) =
      ringOf collectorPid sessionId history ++
        (run (Capture.step collectorPid sessionId) {} history).eventsOf step := by
  unfold ringOf
  rw [collect_snoc, flatten_append, toList_some, flatten_singleton]

def BalancedThroughout (collectorPid : U32) (sessionId : String)
    (steps : List (CaptureStep cpus)) : Prop :=
  StepsMeet (fun history step => ∀ probe, step = .probe probe →
    (kernelAfter collectorPid sessionId history).config.mode = captureModeCode .balanced) steps

def FaithfulThroughout (collectorPid : U32) (sessionId : String) (ttlNs : U64)
    (steps : List (CaptureStep cpus)) : Prop :=
  StepsMeet (fun history step => ∀ probe start, step = .probe probe →
    (kernelAfter collectorPid sessionId history).countedStart probe = some start →
      Faithful ttlNs probe start) steps

/-- An answer has the latencies that the kernel counted. -/
def Matches (collectorPid : U32) (sessionId : String) (salt : U64)
    (steps : List (CaptureStep cpus)) (io : CompletedIo) : Prop :=
  ∃ before probe after start, steps = before ++ .probe probe :: after ∧
    (kernelAfter collectorPid sessionId before).countedStart probe = some start ∧
    io.completion =
      blockCompleteOf salt ((kernelAfter collectorPid sessionId before).eventOf probe) ∧
    SameLatencies io start probe.tsNs

variable {collectorPid : U32} {sessionId : String}

theorem Matches.snoc {salt : U64} {history : List (CaptureStep cpus)} {io : CompletedIo}
    (matched : Matches collectorPid sessionId salt history io) (step : CaptureStep cpus) :
    Matches collectorPid sessionId salt (history ++ [step]) io := by
  obtain ⟨before, probe, after, start, split, same⟩ := matched
  exact ⟨before, probe, after ++ [step], start, append_eq_of_split split _, same⟩

/-- After the records of a history no insert waits for its issue, and every answer matches. -/
structure AnswersMatch (decodeComm : List U8 → String) (salt : U64) (collectorPid : U32)
    (sessionId : String) (host : RequestCorrelator) (history : List (CaptureStep cpus)) :
    Prop where
  clear : (run (hostStep decodeComm salt) host (ringOf collectorPid sessionId history)).Clear
  matched : ∀ io ∈ hostOutputs decodeComm salt host (ringOf collectorPid sessionId history),
    Matches collectorPid sessionId salt history io

section Steps

variable {decodeComm : List U8 → String} {salt : U64} {collectorPid : U32} {sessionId : String}
  {host : RequestCorrelator} {history : List (CaptureStep cpus)}

theorem AnswersMatch.silent
    (answers : AnswersMatch decodeComm salt collectorPid sessionId host history)
    {step : CaptureStep cpus}
    (silent : (run (Capture.step collectorPid sessionId) {} history).eventsOf step = []) :
    AnswersMatch decodeComm salt collectorPid sessionId host (history ++ [step]) := by
  constructor
  · rw [ringOf_snoc, silent, append_nil]
    exact answers.clear
  · rw [ringOf_snoc, silent, append_nil]
    exact fun io member => (answers.matched io member).snoc step

theorem AnswersMatch.counted
    (answers : AnswersMatch decodeComm salt collectorPid sessionId host history)
    {probe : BlockProbe cpus} {start : BlockStart}
    (counted : (kernelAfter collectorPid sessionId history).countedStart probe = some start)
    (faithful : Faithful host.ttlNs probe start)
    (records : (run (Capture.step collectorPid sessionId) {} history).eventsOf (.probe probe) =
      (recordsBefore start ++
        [(kernelAfter collectorPid sessionId history).eventOf probe]).take probe.room) :
    AnswersMatch decodeComm salt collectorPid sessionId host (history ++ [.probe probe]) := by
  obtain ⟨completes, found, -⟩ := lookup_of_countedStart counted
  rw [← ttlNs_run (ringOf collectorPid sessionId history)] at faithful
  obtain ⟨clear, read⟩ := host_reads_records (kernelAfter collectorPid sessionId history)
    answers.clear faithful (requestId_run collectorPid sessionId history found) completes
  constructor
  · rw [ringOf_snoc, records, run_append]
    exact clear
  · intro io member
    unfold hostOutputs at member
    rw [ringOf_snoc, records, collect_append] at member
    rcases mem_append.mp member with before | now
    · exact (answers.matched io before).snoc _
    · exact ⟨history, probe, [], start, rfl, counted, read io now⟩

end Steps

theorem answersMatch_run (decodeComm : List U8 → String) (salt : U64) {host : RequestCorrelator}
    (clear : host.Clear) (steps : List (CaptureStep cpus))
    (balanced : BalancedThroughout collectorPid sessionId steps)
    (faithful : FaithfulThroughout collectorPid sessionId host.ttlNs steps) :
    AnswersMatch decodeComm salt collectorPid sessionId host steps := by
  induction steps using reverseRecOn with
  | nil => exact ⟨clear, fun io member => absurd member not_mem_nil⟩
  | append_singleton history step hypothesis =>
    have answers := hypothesis balanced.of_append faithful.of_append
    cases step with
    | apply config fails => exact answers.silent rfl
    | read => exact answers.silent rfl
    | probe probe =>
      have mode : (kernelAfter collectorPid sessionId history).config.mode =
          captureModeCode .balanced := balanced.last probe rfl
      rcases events_balanced mode with silent | ⟨start, counted, records⟩
      · exact answers.silent silent
      · exact answers.counted counted (faithful.last probe start rfl counted) records

end Runs

/-- In every run in the balanced mode, with any reports that are cut short, each completed request
that the host produces from the ring buffer has the latencies that the kernel counted for this
completion, provided that no report stops after the record of an insert, that a completion is of
the device of its issue, and that the insert comes before the issue and has not expired by then. -/
theorem balanced_round_trip {cpus : Nat} (decodeComm : List U8 → String) (salt ttlNs : U64)
    (positive : 0 < ttlNs) (collectorPid : U32) (sessionId : String)
    (steps : List (CaptureStep cpus)) (balanced : BalancedThroughout collectorPid sessionId steps)
    (faithful : FaithfulThroughout collectorPid sessionId ttlNs steps) (io : CompletedIo)
    (produced : io ∈ hostOutputs decodeComm salt (RequestCorrelator.new ttlNs positive)
      (ringOf collectorPid sessionId steps)) :
    Matches collectorPid sessionId salt steps io := by
  have clear : (new ttlNs positive).Clear := fun _ => rfl
  exact (answersMatch_run decodeComm salt clear steps balanced faithful).matched io produced

theorem testTtl_positive : (0 : U64) < 30_000_000_000 := by decide

def testHost : RequestCorrelator := RequestCorrelator.new 30_000_000_000 testTtl_positive

def wholeReport : List (CaptureStep 1) :=
  [.apply (pidConfig 1 [10]) fun _ => false, .probe (probeBy .insert 10 100),
    .probe (probeBy .issue 10 200), .probe (probeBy .complete 0 300)]

theorem balanced_round_trip_whole :
    ∃ io ∈ hostOutputs (fun _ => "") 77 testHost (ringOf 7 "s" wholeReport),
      io.queueLatencyNs = some 100 ∧ Matches 7 "s" 77 wholeReport io := by
  have produced : (hostOutputs (fun _ => "") 77 testHost (ringOf 7 "s" wholeReport)).map
      (·.queueLatencyNs) = [some 100] := by decide +kernel
  have balanced : BalancedThroughout 7 "s" wholeReport := by
    refine ((((stepsMeet_nil _).snoc ?_).snoc ?_).snoc ?_).snoc ?_
    · rintro probe ⟨⟩
    all_goals
      rintro probe ⟨⟩
      decide +kernel
  have faithful : FaithfulThroughout 7 "s" 30_000_000_000 wholeReport := by
    refine ((((stepsMeet_nil _).snoc ?_).snoc ?_).snoc ?_).snoc ?_
    · rintro probe start ⟨⟩
    · rintro probe start ⟨⟩ counted
      cases (lookup_of_countedStart counted).1
    · rintro probe start ⟨⟩ counted
      cases (lookup_of_countedStart counted).1
    · rintro probe start ⟨⟩ counted
      have times : ((kernelAfter 7 "s" (wholeReport.take 3)).countedStart
          (probeBy .complete 0 300)).map (fun start =>
            (start.device, start.insertTsNs, start.issueTsNs)) = some (0x800000, 100, 200) := by
        decide +kernel
      have found : (kernelAfter 7 "s" (wholeReport.take 3)).countedStart
          (probeBy .complete 0 300) = some start := counted
      rw [found, map_some, some.injEq, Prod.mk.injEq, Prod.mk.injEq] at times
      obtain ⟨device, insertTime, issueTime⟩ := times
      refine ⟨fun _ => (by decide), device, ?_, fun _ => ?_⟩
      · rw [insertTime, issueTime]
        decide
      · rw [insertTime, issueTime]
        decide
  obtain ⟨io, single, queue⟩ := map_eq_singleton_iff.mp produced
  have member : io ∈ hostOutputs (fun _ => "") 77 testHost (ringOf 7 "s" wholeReport) := by
    rw [single]
    exact mem_singleton_self io
  exact ⟨io, member, queue, balanced_round_trip (fun _ => "") 77 30_000_000_000 (by decide) 7 "s"
    wholeReport balanced faithful io member⟩

/-- The report of a completion stops after the record of its insert. The request is used again
without an insert. The kernel counts no queue latency for it, and the host takes the old
insert. -/
theorem stale_insert_is_paired :
    let history : List (CaptureStep 1) :=
      [.apply (pidConfig 1 [10]) fun _ => false, .probe (probeBy .insert 10 100),
        .probe (probeBy .issue 10 200), .probe { probeBy .complete 0 300 with room := 1 },
        .probe (probeBy .issue 10 400)]
    let probe := probeBy .complete 0 500
    ((kernelAfter 7 "s" history).countedStart probe).map (latencies · 500) =
        some (100, 0, 100) ∧
      (hostOutputs (fun _ => "") 77 testHost (ringOf 7 "s" (history ++ [.probe probe]))).map
          (fun io => (io.totalLatencyNs, io.queueLatencyNs, io.deviceLatencyNs)) =
        [(some 400, some 300, some 100)] := by
  decide +kernel

end EbpfStudio

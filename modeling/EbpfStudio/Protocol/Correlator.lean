/-
This file models the request correlator, which joins optional insert, issue and completion events of
one block request.

Requests are pending under their id and device. A second insert before an issue, or an issue of a
pending key, makes the key ambiguous, and the next completion of it is not answered. What is too old
expires at every call, and a counter for each device says how many requests are in flight.
-/

import EbpfStudio.Library.Table
import EbpfStudio.Protocol.Event

namespace EbpfStudio

open Option Table

/-- The id and device of a request. -/
structure RequestKey where
  requestId : U64
  deviceMajor : U32
  deviceMinor : U32
  deriving DecidableEq

namespace RequestKey

def issue (value : BlockIssue) : RequestKey :=
  ⟨value.requestId, value.deviceMajor, value.deviceMinor⟩

def insert (value : BlockInsert) : RequestKey :=
  ⟨value.requestId, value.deviceMajor, value.deviceMinor⟩

def complete (value : BlockComplete) : RequestKey :=
  ⟨value.requestId, value.deviceMajor, value.deviceMinor⟩

end RequestKey

/-- An issued request. -/
structure PendingRequest where
  issue : BlockIssue
  insert : Option BlockInsert
  accessPattern : AccessPattern
  detailTiming : DetailTiming
  queueDepthAtIssue : Nat
  deriving DecidableEq

abbrev Device := U32 × U32

/-- The correlator's state. A time to live of zero is refused by the source's constructor, so
it cannot be built here. -/
structure RequestCorrelator where
  ttlNs : U64
  ttlPositive : 0 < ttlNs
  inserted : Table RequestKey BlockInsert := ∅
  pending : Table RequestKey PendingRequest := ∅
  devicePending : Table Device Nat := ∅
  lastIssue : Table Device U64 := ∅
  lastCompletion : Table Device U64 := ∅
  issueBandwidth : Table Device RollingRateAccumulator := ∅
  completionBandwidth : Table Device RollingRateAccumulator := ∅
  ambiguous : Table RequestKey U64 := ∅
  expired : Nat := 0
  replaced : Nat := 0

def payloadBytes (issue : BlockIssue) : U64 :=
  match issue.operation with
  | .read | .write => Word.ofNat 64 issue.bytes
  | _ => Word.ofNat 64 0

namespace RequestCorrelator

def new (ttlNs : U64) (ttlPositive : 0 < ttlNs) : RequestCorrelator where
  ttlNs := ttlNs
  ttlPositive := ttlPositive

/-- A time is within the time to live. -/
def live (correlator : RequestCorrelator) (nowNs tsNs : U64) : Bool :=
  decide (nowNs.saturatingSub tsNs ≤ correlator.ttlNs)

def release (counters : Table Device Nat) (device : Device) : Table Device Nat :=
  counters.modify device fun depth => depth - 1

/-- Drop what is too old. -/
def expireBefore (correlator : RequestCorrelator) (nowNs : U64) : RequestCorrelator :=
  let inserted := correlator.inserted.retain fun _ value => correlator.live nowNs value.tsNs
  let pending := correlator.pending.retain fun _ value => correlator.live nowNs value.issue.tsNs
  let ambiguous := correlator.ambiguous.retain fun _ tsNs => correlator.live nowNs tsNs
  let dropped := correlator.pending.retain fun _ value => !correlator.live nowNs value.issue.tsNs
  { correlator with
    inserted := inserted
    pending := pending
    ambiguous := ambiguous
    devicePending := dropped.toPairs.foldl
      (fun counters entry =>
        release counters (entry.2.issue.deviceMajor, entry.2.issue.deviceMinor))
      correlator.devicePending
    expired := correlator.expired + (correlator.inserted.size - inserted.size) +
      (correlator.pending.size - pending.size) + (correlator.ambiguous.size - ambiguous.size) }

/-- A request is put into the queue. -/
def onInsert (correlator : RequestCorrelator) (insert : BlockInsert) : RequestCorrelator :=
  let correlator := correlator.expireBefore insert.tsNs
  let key := RequestKey.insert insert
  let repeated := correlator.inserted.containsKey key
  let correlator := { correlator with inserted := correlator.inserted.insert key insert }
  if repeated then
    { correlator with
      replaced := correlator.replaced + 1
      ambiguous := correlator.ambiguous.insert key insert.tsNs }
  else correlator

/-- A request is issued. -/
def onIssueClassified (correlator : RequestCorrelator) (issue : BlockIssue)
    (accessPattern : AccessPattern) : RequestCorrelator × Nat :=
  let correlator := correlator.expireBefore issue.tsNs
  let key := RequestKey.issue issue
  let device := (issue.deviceMajor, issue.deviceMinor)
  let issueGapNs := (correlator.lastIssue.lookup device).bind fun last =>
    issue.tsNs.checkedSub last
  let insert := correlator.inserted.lookup key
  let observed := ((correlator.issueBandwidth.lookup device).getD {}).observe issueGapNs
    (some (payloadBytes issue))
  let removed := correlator.pending.containsKey key
  let pending : Table RequestKey PendingRequest := correlator.pending.erase key
  let depth := (correlator.devicePending.lookup device).getD 0 - if removed then 1 else 0
  let collision := correlator.ambiguous.containsKey key || removed
  let correlator := { correlator with
    lastIssue := correlator.lastIssue.insert device issue.tsNs
    inserted := correlator.inserted.erase key
    issueBandwidth := correlator.issueBandwidth.insert device observed.1 }
  if collision then
    ({ correlator with
        pending := pending
        devicePending := correlator.devicePending.insert device depth
        replaced := correlator.replaced + 1
        ambiguous := correlator.ambiguous.insert key issue.tsNs }, pending.size)
  else
    let request : PendingRequest :=
      { issue := issue
        insert := insert
        accessPattern := accessPattern
        detailTiming :=
          { issueDepth := some (depth + 1)
            issueGapNs := issueGapNs
            completionGapNs := none
            issueBandwidth := observed.2
            completionBandwidth := none }
        queueDepthAtIssue := pending.size + 1 }
    let pending : Table RequestKey PendingRequest := pending.insert key request
    ({ correlator with
        pending := pending
        devicePending := correlator.devicePending.insert device (depth + 1) }, pending.size)

def onIssue (correlator : RequestCorrelator) (issue : BlockIssue) : RequestCorrelator × Nat :=
  correlator.onIssueClassified issue .unknown

/-- The completed request a pending request and its completion make, unless the completion
precedes the issue. -/
def completed (request : PendingRequest) (completion : BlockComplete) (pendingAfter : Nat)
    (completionGapNs : Option U64) (completionBandwidth : Option RollingRate) :
    Option CompletedIo := do
  let deviceLatencyNs ← completion.tsNs.checkedSub request.issue.tsNs
  let queueLatencyNs := request.insert.bind fun insert =>
    request.issue.tsNs.checkedSub insert.tsNs
  let totalLatencyNs := (request.insert.bind fun insert =>
    completion.tsNs.checkedSub insert.tsNs).getD deviceLatencyNs
  some
    { insert := request.insert
      issue := request.issue
      completion := completion
      latencyNs := some deviceLatencyNs
      queueLatencyNs := queueLatencyNs
      deviceLatencyNs := some deviceLatencyNs
      totalLatencyNs := some totalLatencyNs
      queueDepthAtIssue := some request.queueDepthAtIssue
      queueDepthAfter := some pendingAfter
      detailTiming := { request.detailTiming with
        completionGapNs := completionGapNs
        completionBandwidth := completionBandwidth }
      accessPattern := request.accessPattern
      sizeClass := IoSizeClass.classify request.issue.bytes
      evidence := none }

/-- A completion, with the request that it answers. -/
def onComplete (correlator : RequestCorrelator) (completion : BlockComplete) :
    RequestCorrelator × Option CompletedIo :=
  let correlator := correlator.expireBefore completion.tsNs
  let key := RequestKey.complete completion
  let device := (completion.deviceMajor, completion.deviceMinor)
  let completionGapNs := (correlator.lastCompletion.lookup device).bind fun last =>
    completion.tsNs.checkedSub last
  let payload := ((correlator.pending.lookup key).filter fun request =>
    request.issue.tsNs ≤ completion.tsNs).map fun request => payloadBytes request.issue
  let observed := ((correlator.completionBandwidth.lookup device).getD {}).observe
    completionGapNs payload
  let correlator := { correlator with
    lastCompletion := correlator.lastCompletion.insert device completion.tsNs
    completionBandwidth := correlator.completionBandwidth.insert device observed.1 }
  if correlator.ambiguous.containsKey key then
    ({ correlator with ambiguous := correlator.ambiguous.erase key }, none)
  else
    match correlator.pending.lookup key with
    | none => (correlator, none)
    | some request =>
      let pending : Table RequestKey PendingRequest := correlator.pending.erase key
      ({ correlator with
          pending := pending
          devicePending := release correlator.devicePending device },
        completed request completion pending.size completionGapNs observed.2)

variable (correlator : RequestCorrelator)

theorem expireBefore_pending (nowNs : U64) (key : RequestKey) :
    (correlator.expireBefore nowNs).pending.lookup key =
      (correlator.pending.lookup key).filter
        fun request => correlator.live nowNs request.issue.tsNs :=
  lookup_retain _ _ _

variable {correlator : RequestCorrelator} {request : PendingRequest} {key : RequestKey}

theorem pending_of_expireBefore {nowNs : U64}
    (found : (correlator.expireBefore nowNs).pending.lookup key = some request) :
    correlator.pending.lookup key = some request := by
  rw [expireBefore_pending, filter_eq_some_iff] at found
  exact found.1

theorem onInsert_pending (correlator : RequestCorrelator) (insert : BlockInsert) :
    (correlator.onInsert insert).pending = (correlator.expireBefore insert.tsNs).pending := by
  unfold onInsert
  simp only
  split <;> rfl

variable {accessPattern : AccessPattern}

theorem pending_of_onIssueClassified {issue : BlockIssue}
    (found : (correlator.onIssueClassified issue accessPattern).1.pending.lookup key =
      some request) :
    (key = RequestKey.issue issue ∧ request.issue = issue) ∨
      (key ≠ RequestKey.issue issue ∧ correlator.pending.lookup key = some request) := by
  unfold onIssueClassified at found
  simp only at found
  by_cases same : key = RequestKey.issue issue
  · refine .inl ⟨same, ?_⟩
    split at found
    · rw [lookup_erase_eq, if_pos same] at found
      cases found
    · rw [lookup_insert_eq, if_pos same] at found
      cases found
      rfl
  · have older : (correlator.expireBefore issue.tsNs).pending.lookup key = some request := by
      split at found
      · rwa [lookup_erase_eq, if_neg same] at found
      · rwa [lookup_insert_eq, if_neg same, lookup_erase_eq, if_neg same] at found
    exact .inr ⟨same, pending_of_expireBefore older⟩

variable {completion : BlockComplete}

theorem pending_of_onComplete
    (found : (correlator.onComplete completion).1.pending.lookup key = some request) :
    (correlator.expireBefore completion.tsNs).pending.lookup key = some request ∧
      (key = RequestKey.complete completion →
        (correlator.expireBefore completion.tsNs).ambiguous.containsKey key = true) := by
  unfold onComplete at found
  simp only at found
  split at found
  · rename_i marked
    exact ⟨found, fun same => same ▸ marked⟩
  · split at found
    · rename_i absent
      refine ⟨found, fun same => ?_⟩
      rw [same, absent] at found
      cases found
    · by_cases same : key = RequestKey.complete completion
      · rw [lookup_erase_eq, if_pos same] at found
        cases found
      · rw [lookup_erase_eq, if_neg same] at found
        exact ⟨found, fun equal => absurd equal same⟩

section

variable {completion : BlockComplete} {io : CompletedIo}
  (answered : (correlator.onComplete completion).2 = some io)

include answered

theorem onComplete_eq_some :
    ∃ request, (correlator.expireBefore completion.tsNs).pending.lookup
        (RequestKey.complete completion) = some request ∧
      (correlator.expireBefore completion.tsNs).ambiguous.containsKey
        (RequestKey.complete completion) = false ∧
      io.issue = request.issue ∧ io.insert = request.insert ∧ io.completion = completion ∧
      io.evidence = none ∧ request.issue.tsNs ≤ completion.tsNs := by
  unfold onComplete at answered
  simp only at answered
  split at answered
  · cases answered
  · rename_i unmarked
    split at answered
    · cases answered
    · rename_i request found
      obtain ⟨latency, checked, equal⟩ := bind_eq_some_iff.mp answered
      cases equal
      exact ⟨request, found, Bool.eq_false_iff.mpr unmarked, rfl, rfl, rfl, rfl,
        (Word.checkedSub_eq_some.mp checked).1⟩

theorem latencies_of_onComplete :
    io.completion = completion ∧ ∃ deviceLatencyNs,
      completion.tsNs.checkedSub io.issue.tsNs = some deviceLatencyNs ∧
      io.deviceLatencyNs = some deviceLatencyNs ∧
      io.queueLatencyNs = io.insert.bind (fun insert => io.issue.tsNs.checkedSub insert.tsNs) ∧
      io.totalLatencyNs = some ((io.insert.bind fun insert =>
        completion.tsNs.checkedSub insert.tsNs).getD deviceLatencyNs) := by
  unfold onComplete at answered
  simp only at answered
  split at answered
  · cases answered
  · split at answered
    · cases answered
    · unfold completed at answered
      obtain ⟨latency, checked, equal⟩ := bind_eq_some_iff.mp answered
      cases equal
      exact ⟨rfl, latency, checked, rfl, rfl, rfl⟩

end

theorem expireBefore_inserted (correlator : RequestCorrelator) (nowNs : U64) (key : RequestKey) :
    (correlator.expireBefore nowNs).inserted.lookup key =
      (correlator.inserted.lookup key).filter fun insert => correlator.live nowNs insert.tsNs :=
  lookup_retain _ _ _

theorem inserted_expireBefore_eq_none (absent : correlator.inserted.lookup key = none)
    (nowNs : U64) :
    (correlator.expireBefore nowNs).inserted.lookup key = none := by
  rw [expireBefore_inserted, absent]
  rfl

theorem onInsert_inserted (correlator : RequestCorrelator) (insert : BlockInsert)
  (key : RequestKey) :
    (correlator.onInsert insert).inserted.lookup key =
      if key = RequestKey.insert insert then some insert
      else (correlator.expireBefore insert.tsNs).inserted.lookup key := by
  unfold onInsert
  simp only
  split <;> exact lookup_insert_eq ..

theorem onIssueClassified_inserted (correlator : RequestCorrelator) (issue : BlockIssue)
  (accessPattern : AccessPattern)
    (key : RequestKey) :
    (correlator.onIssueClassified issue accessPattern).1.inserted.lookup key =
      if key = RequestKey.issue issue then none
      else (correlator.expireBefore issue.tsNs).inserted.lookup key := by
  unfold onIssueClassified
  simp only
  split <;> exact lookup_erase_eq ..

theorem onComplete_inserted (correlator : RequestCorrelator) (completion : BlockComplete) :
    (correlator.onComplete completion).1.inserted =
      (correlator.expireBefore completion.tsNs).inserted := by
  unfold onComplete
  simp only
  split
  · rfl
  · split <;> rfl

theorem insert_of_onIssueClassified {issue : BlockIssue}
    (found : (correlator.onIssueClassified issue accessPattern).1.pending.lookup
      (RequestKey.issue issue) = some request) :
    request.issue = issue ∧ request.insert =
      (correlator.expireBefore issue.tsNs).inserted.lookup (RequestKey.issue issue) := by
  unfold onIssueClassified at found
  simp only at found
  split at found
  · rw [lookup_erase_eq, if_pos rfl] at found
    cases found
  · rw [lookup_insert_eq, if_pos rfl] at found
    cases found
    exact ⟨rfl, rfl⟩

section

variable (correlator : RequestCorrelator)

theorem size_pending_expireBefore_le (nowNs : U64) :
    (correlator.expireBefore nowNs).pending.size ≤ correlator.pending.size :=
  size_retain_le _ _

theorem size_pending_onInsert_le (insert : BlockInsert) :
    (correlator.onInsert insert).pending.size ≤ correlator.pending.size := by
  rw [onInsert_pending]
  exact correlator.size_pending_expireBefore_le insert.tsNs

theorem size_pending_onIssueClassified_le (issue : BlockIssue) (accessPattern : AccessPattern) :
    (correlator.onIssueClassified issue accessPattern).1.pending.size ≤
      correlator.pending.size + 1 := by
  have erased : size ((correlator.expireBefore issue.tsNs).pending.erase
      (RequestKey.issue issue)) ≤ correlator.pending.size :=
    (Nat.le.intro (size_erase _ _)).trans (correlator.size_pending_expireBefore_le issue.tsNs)
  unfold onIssueClassified
  dsimp only
  split
  · exact Nat.le_succ_of_le erased
  · exact (size_insert_le _ _ _).trans (Nat.succ_le_succ erased)

theorem size_pending_onComplete_le (completion : BlockComplete) :
    (correlator.onComplete completion).1.pending.size +
      (correlator.onComplete completion).2.isSome.toNat ≤ correlator.pending.size := by
  have expired := correlator.size_pending_expireBefore_le completion.tsNs
  have erased := size_erase (correlator.expireBefore completion.tsNs).pending
    (RequestKey.complete completion)
  unfold onComplete
  dsimp only
  split
  · exact expired
  · split
    · exact expired
    · rename_i request found
      rw [found, toList_some, List.length_singleton] at erased
      exact (Nat.add_le_add_left (Bool.toNat_le _) _).trans (erased.le.trans expired)

end

def Keyed (correlator : RequestCorrelator) : Prop :=
  ∀ key request, correlator.pending.lookup key = some request →
    RequestKey.issue request.issue = key

section

variable (keyed : correlator.Keyed)
include keyed

theorem Keyed.onInsert (insert : BlockInsert) :
    (correlator.onInsert insert).Keyed := by
  intro key request found
  rw [onInsert_pending] at found
  exact keyed key request (pending_of_expireBefore found)

theorem Keyed.onIssueClassified (issue : BlockIssue) (accessPattern : AccessPattern) :
    (correlator.onIssueClassified issue accessPattern).1.Keyed := by
  intro key request found
  rcases pending_of_onIssueClassified found with ⟨same, own⟩ | ⟨-, older⟩
  · rw [own, same]
  · exact keyed key request older

theorem Keyed.onComplete (completion : BlockComplete) :
    (correlator.onComplete completion).1.Keyed := by
  intro key request found
  exact keyed key request (pending_of_expireBefore (pending_of_onComplete found).1)

theorem Keyed.requestId_of_onComplete {io : CompletedIo}
    (answered : (correlator.onComplete completion).2 = some io) :
    io.issue.requestId = completion.requestId := by
  obtain ⟨request, found, -, sameIssue, -⟩ := onComplete_eq_some answered
  have key := keyed _ request (pending_of_expireBefore found)
  rw [sameIssue]
  exact congrArg RequestKey.requestId key

end

end RequestCorrelator

end EbpfStudio

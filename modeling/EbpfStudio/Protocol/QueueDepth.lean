/-
This file proves that the depths that the correlator counts are exact.

The correlator keeps the pending requests and, next to them, a counter for each device. `released`
and `raised` say which counters a call changes, and pending requests change in step with them
(`Counted`), since a key that is removed was there. A request knows the depth at its issue, and this
is the number of requests pending right after it (`PendingSince`).
-/

import EbpfStudio.Protocol.Lifetime

namespace EbpfStudio

open Run List

def PendingRequest.device (request : PendingRequest) : Device :=
  (request.issue.deviceMajor, request.issue.deviceMinor)

def RequestKey.device (key : RequestKey) : Device := (key.deviceMajor, key.deviceMinor)

namespace RequestCorrelator

/-! ### Lowering the counters -/

def depthIn (counters : Table Device Nat) (device : Device) : Nat :=
  (counters.lookup device).getD 0

def releaseChecked (counters : Table Device Nat) (device : Device) :
    Option (Table Device Nat) :=
  if 0 < depthIn counters device then some (release counters device) else none

variable (counters : Table Device Nat)

theorem depthIn_insert (device other : Device) (depth : Nat) :
    depthIn (counters.insert device depth) other =
      if other = device then depth else depthIn counters other := by
  unfold depthIn
  rw [Table.lookup_insert_eq]
  split <;> rfl

theorem depthIn_release (device other : Device) :
    depthIn (release counters device) other =
      depthIn counters other - if other = device then 1 else 0 := by
  unfold release Table.modify
  cases found : counters.lookup device with
  | none =>
    by_cases same : other = device
    · rw [if_pos same, same, depthIn, found]
      rfl
    · rw [if_neg same]
      rfl
  | some depth =>
    rw [depthIn_insert]
    by_cases same : other = device
    · rw [if_pos same, if_pos same, same, depthIn, found]
      rfl
    · rw [if_neg same, if_neg same]
      rfl

theorem depthIn_foldl_release (devices : List Device) (counters : Table Device Nat)
    (device : Device) :
    depthIn (devices.foldl release counters) device =
      depthIn counters device - devices.count device := by
  induction devices generalizing counters with
  | nil => rfl
  | cons first rest hypothesis =>
    rw [foldl_cons, hypothesis, depthIn_release, count_cons]
    by_cases same : device = first
    · rw [if_pos same, if_pos (beq_iff_eq.mpr same.symm)]
      omega
    · rw [if_neg same, if_neg (by simpa using Ne.symm same)]
      rfl

theorem foldlM_releaseChecked {devices : List Device} {counters : Table Device Nat}
    (enough : ∀ device, devices.count device ≤ depthIn counters device) :
    devices.foldlM releaseChecked counters = some (devices.foldl release counters) := by
  induction devices generalizing counters with
  | nil => rfl
  | cons first rest hypothesis =>
    have positive : 0 < depthIn counters first := by
      have here := enough first
      rw [count_cons_self] at here
      omega
    rw [foldlM_cons, releaseChecked, if_pos positive, foldl_cons]
    refine hypothesis fun device => ?_
    have before := enough device
    rw [count_cons] at before
    rw [depthIn_release]
    by_cases same : device = first
    · rw [if_pos (beq_iff_eq.mpr same.symm)] at before
      rw [if_pos same]
      omega
    · rw [if_neg (by simpa using Ne.symm same)] at before
      rw [if_neg same]
      exact before

/-! ### The pending requests of a device -/

def pendingOn (correlator : RequestCorrelator) (device : Device) : Nat :=
  correlator.pending.values.countP fun request => request.device = device

def expiredDevices (correlator : RequestCorrelator) (nowNs : U64) : List Device :=
  (correlator.pending.retain fun _ value => !correlator.live nowNs value.issue.tsNs).values.map
    (·.device)

variable (correlator : RequestCorrelator) (nowNs : U64)

theorem devicePending_expireBefore :
    (correlator.expireBefore nowNs).devicePending =
      (correlator.expiredDevices nowNs).foldl release correlator.devicePending := by
  unfold expiredDevices Table.values
  rw [map_map, foldl_map]
  rfl

theorem pendingOn_expireBefore (device : Device) :
    (correlator.expireBefore nowNs).pendingOn device +
      (correlator.expiredDevices nowNs).count device = correlator.pendingOn device := by
  have ofDevice : ((· == device) ∘ fun request : PendingRequest => request.device) =
      fun request => decide (request.device = device) := by
    funext request
    exact beq_eq_decide _ _
  unfold pendingOn expiredDevices expireBefore
  rw [Table.values_retain fun request : PendingRequest =>
      correlator.live nowNs request.issue.tsNs,
    Table.values_retain fun request : PendingRequest =>
      !correlator.live nowNs request.issue.tsNs, count, countP_map, ofDevice]
  exact (countP_eq_countP_filter_add _ _ _).symm

section

variable {correlator : RequestCorrelator}

theorem Keyed.expireBefore (keyed : correlator.Keyed) (nowNs : U64) :
    (correlator.expireBefore nowNs).Keyed :=
  fun key request found => keyed key request (pending_of_expireBefore found)

variable {request : PendingRequest} {key : RequestKey}

theorem Keyed.device (keyed : correlator.Keyed)
    (found : correlator.pending.lookup key = some request) : request.device = key.device := by
  rw [← keyed key request found]
  rfl

theorem Keyed.countP_erase (keyed : correlator.Keyed) {own : Device} (ofKey : key.device = own)
    (device : Device) :
    (Table.values (correlator.pending.erase key)).countP (fun request => request.device = device) +
        (if device = own ∧ correlator.pending.containsKey key = true then 1 else 0) =
      correlator.pendingOn device := by
  have parts := (correlator.pending.perm_values_erase key).countP_eq
    fun request => request.device = device
  rw [countP_append] at parts
  unfold pendingOn
  rw [← parts, Table.containsKey]
  congr 1
  cases found : correlator.pending.lookup key with
  | none => simp
  | some request =>
    rw [Option.toList_some, countP_singleton, keyed.device found, ofKey]
    simp [eq_comm]

end

section

variable (pending : Table RequestKey PendingRequest) (key : RequestKey) (request : PendingRequest)

theorem countP_insert_erased (device : Device) :
    (Table.values ((pending.erase key).insert key request)).countP
        (fun request => request.device = device) =
      (Table.values (pending.erase key)).countP (fun request => request.device = device) +
        if device = request.device then 1 else 0 := by
  have absent : (pending.erase key).lookup key = none := AList.lookup_erase _ _
  have parts := (Table.perm_values_insert (pending.erase key) key request).countP_eq
    fun request => request.device = device
  rw [absent, Option.toList_none, append_nil, countP_append, countP_singleton]
    at parts
  rw [parts]
  simp [eq_comm]

theorem size_insert_erased :
    Table.size ((pending.erase key).insert key request) = Table.size (pending.erase key) + 1 := by
  have absent : (pending.erase key).lookup key = none := AList.lookup_erase _ _
  have parts := (Table.perm_values_insert (pending.erase key) key request).length_eq
  rw [absent, Option.toList_none, append_nil, length_append, length_singleton]
    at parts
  rw [Table.size_eq, Table.size_eq]
  exact parts

end

/-! ### What a call does to the counters and to the requests -/

theorem onIssueClassified_cases (issue : BlockIssue) (accessPattern : AccessPattern) :
    let expired := correlator.expireBefore issue.tsNs
    let after := (correlator.onIssueClassified issue accessPattern).1
    let removed := expired.pending.containsKey (RequestKey.issue issue)
    let device := (issue.deviceMajor, issue.deviceMinor)
    ((expired.ambiguous.containsKey (RequestKey.issue issue) || removed) = true ∧
      after.pending = expired.pending.erase (RequestKey.issue issue) ∧
      after.devicePending = expired.devicePending.insert device
        (depthIn expired.devicePending device - if removed then 1 else 0)) ∨
    ((expired.ambiguous.containsKey (RequestKey.issue issue) || removed) = false ∧
      removed = false ∧
      ∃ request : PendingRequest, request.device = device ∧
        after.pending = (expired.pending.erase (RequestKey.issue issue)).insert
          (RequestKey.issue issue) request ∧
        after.devicePending = expired.devicePending.insert device
          (depthIn expired.devicePending device + 1)) := by
  intro expired after removed device
  cases collision : expired.ambiguous.containsKey (RequestKey.issue issue) || removed with
  | true =>
    have shape : after = _ := congrArg Prod.fst (if_pos collision)
    exact .inl ⟨rfl, by rw [shape], by rw [shape]; rfl⟩
  | false =>
    have absent := (Bool.or_eq_false_iff.mp collision).2
    have shape : after = _ := congrArg Prod.fst (if_neg (Bool.eq_false_iff.mp collision))
    refine .inr ⟨rfl, absent, _, ?_, by rw [shape], ?_⟩
    · rfl
    · rw [shape]
      show expired.devicePending.insert device
        (depthIn expired.devicePending device - (if removed then 1 else 0) + 1) = _
      rw [absent]
      rfl

theorem onComplete_cases (completion : BlockComplete) :
    let expired := correlator.expireBefore completion.tsNs
    let after := (correlator.onComplete completion).1
    let taken := !expired.ambiguous.containsKey (RequestKey.complete completion) &&
      expired.pending.containsKey (RequestKey.complete completion)
    (taken = true ∧ after.pending = expired.pending.erase (RequestKey.complete completion) ∧
      after.devicePending =
        release expired.devicePending (completion.deviceMajor, completion.deviceMinor)) ∨
    (taken = false ∧ after.pending = expired.pending ∧
      after.devicePending = expired.devicePending) := by
  intro expired after taken
  have present (unmarked : expired.ambiguous.containsKey (RequestKey.complete completion) = false) :
      taken = (expired.pending.lookup (RequestKey.complete completion)).isSome := by
    show (!expired.ambiguous.containsKey _ && expired.pending.containsKey _) = _
    rw [unmarked]
    rfl
  show (taken = true ∧ (correlator.onComplete completion).1.pending = _ ∧
    (correlator.onComplete completion).1.devicePending = _) ∨
    (taken = false ∧ (correlator.onComplete completion).1.pending = _ ∧
      (correlator.onComplete completion).1.devicePending = _)
  unfold onComplete
  dsimp only
  split
  · rename_i marked
    refine .inr ⟨?_, rfl, rfl⟩
    show (!expired.ambiguous.containsKey _ && _) = false
    rw [marked]
    rfl
  · rename_i unmarked
    have same := present (Bool.eq_false_iff.mpr unmarked)
    split
    · rename_i absent
      exact .inr ⟨same.trans (by rw [absent]; rfl), rfl, rfl⟩
    · rename_i request found
      exact .inl ⟨same.trans (by rw [found]; rfl), rfl, rfl⟩

/-- The devices whose counters a call lowers: those of the requests that it expires, and its own
if it takes a request away. -/
def released (correlator : RequestCorrelator) : CorrelatorCall → List Device
  | .insert insert => correlator.expiredDevices insert.tsNs
  | .issue issue _ =>
    let expired := correlator.expireBefore issue.tsNs
    correlator.expiredDevices issue.tsNs ++
      if expired.pending.containsKey (RequestKey.issue issue) then
        [(issue.deviceMajor, issue.deviceMinor)] else []
  | .complete completion =>
    let expired := correlator.expireBefore completion.tsNs
    correlator.expiredDevices completion.tsNs ++
      if !expired.ambiguous.containsKey (RequestKey.complete completion) &&
          expired.pending.containsKey (RequestKey.complete completion) then
        [(completion.deviceMajor, completion.deviceMinor)] else []

/-- The device whose counter a call raises: that of an issue which becomes pending. -/
def raised (correlator : RequestCorrelator) : CorrelatorCall → List Device
  | .issue issue _ =>
    let expired := correlator.expireBefore issue.tsNs
    if expired.ambiguous.containsKey (RequestKey.issue issue) ||
        expired.pending.containsKey (RequestKey.issue issue) then []
    else [(issue.deviceMajor, issue.deviceMinor)]
  | _ => []

theorem count_ite_singleton (taken : Bool) (own device : Device) :
    (if taken then [own] else []).count device = if device = own ∧ taken = true then 1 else 0 := by
  cases taken with
  | false => simp
  | true =>
    rw [if_pos rfl, count_singleton]
    exact if_congr (beq_iff_eq.trans (eq_comm.trans (and_iff_left rfl).symm)) rfl rfl

theorem depthIn_expireBefore (device : Device) :
    depthIn (correlator.expireBefore nowNs).devicePending device =
      depthIn correlator.devicePending device -
        (correlator.expiredDevices nowNs).count device := by
  rw [devicePending_expireBefore, depthIn_foldl_release]

theorem depthIn_step (call : CorrelatorCall) (device : Device) :
    depthIn (correlator.step call).devicePending device =
      depthIn correlator.devicePending device - (correlator.released call).count device +
        (correlator.raised call).count device := by
  cases call with
  | insert insert =>
    have expired := correlator.depthIn_expireBefore insert.tsNs device
    unfold step onInsert
    dsimp only
    split <;> exact expired
  | issue issue accessPattern =>
    have expired := correlator.depthIn_expireBefore issue.tsNs device
    unfold step released raised
    dsimp only
    rw [count_append, count_ite_singleton, ← Nat.sub_sub, ← expired]
    rcases correlator.onIssueClassified_cases issue accessPattern with
      ⟨collision, -, counters⟩ | ⟨free, absent, -, -, -, counters⟩
    · rw [counters, collision, depthIn_insert, if_pos rfl, count_nil, Nat.add_zero]
      by_cases own : device = (issue.deviceMajor, issue.deviceMinor)
      · rw [if_pos own, if_congr (and_iff_right own) rfl rfl, own]
      · rw [if_neg own, if_neg fun both => own both.1]
        rfl
    · rw [counters, free, absent, depthIn_insert, if_neg Bool.false_ne_true]
      by_cases own : device = (issue.deviceMajor, issue.deviceMinor)
      · rw [if_pos own, own, count_singleton_self]
        simp
      · rw [if_neg own, count_eq_zero_of_not_mem (by simpa using own)]
        simp
  | complete completion =>
    have expired := correlator.depthIn_expireBefore completion.tsNs device
    unfold step released raised
    rw [count_append, count_ite_singleton, ← Nat.sub_sub, ← expired, count_nil,
      Nat.add_zero]
    rcases correlator.onComplete_cases completion with ⟨taken, -, counters⟩ | ⟨kept, -, counters⟩
    · rw [counters, taken, depthIn_release, if_congr (and_iff_left rfl) rfl rfl]
    · rw [counters, kept]
      simp

variable {correlator}

theorem Keyed.pendingOn_step (keyed : correlator.Keyed) (call : CorrelatorCall) (device : Device) :
    (correlator.step call).pendingOn device + (correlator.released call).count device =
      correlator.pendingOn device + (correlator.raised call).count device := by
  cases call with
  | insert insert =>
    have same : (correlator.step (.insert insert)).pendingOn device =
        (correlator.expireBefore insert.tsNs).pendingOn device := by
      unfold pendingOn step
      rw [onInsert_pending]
    rw [same]
    exact correlator.pendingOn_expireBefore insert.tsNs device
  | issue issue accessPattern =>
    have ofKey : (RequestKey.issue issue).device = (issue.deviceMajor, issue.deviceMinor) := rfl
    have expired := correlator.pendingOn_expireBefore issue.tsNs device
    have erased := (keyed.expireBefore issue.tsNs).countP_erase ofKey device
    unfold step released raised pendingOn
    dsimp only
    rw [count_append, count_ite_singleton]
    rcases correlator.onIssueClassified_cases issue accessPattern with
      ⟨collision, pending, -⟩ | ⟨free, absent, request, ofRequest, pending, -⟩
    · rw [pending, collision, if_pos rfl, count_nil]
      unfold pendingOn at expired erased
      omega
    · have single := count_ite_singleton true (issue.deviceMajor, issue.deviceMinor) device
      rw [if_pos rfl, if_congr (and_iff_left rfl) rfl rfl] at single
      rw [absent] at erased
      rw [pending, free, absent, if_neg Bool.false_ne_true, countP_insert_erased, ofRequest, single]
      simp only [Bool.false_eq_true, and_false, if_false] at erased ⊢
      unfold pendingOn at expired erased
      omega
  | complete completion =>
    have ofKey : (RequestKey.complete completion).device =
        (completion.deviceMajor, completion.deviceMinor) := rfl
    have expired := correlator.pendingOn_expireBefore completion.tsNs device
    have erased := (keyed.expireBefore completion.tsNs).countP_erase ofKey device
    unfold step released raised pendingOn
    rw [count_append, count_ite_singleton, count_nil]
    rcases correlator.onComplete_cases completion with ⟨taken, pending, -⟩ | ⟨kept, pending, -⟩
    · rw [(Bool.and_eq_true_iff.mp taken).2] at erased
      rw [pending, taken]
      unfold pendingOn at expired erased
      omega
    · rw [pending, kept]
      simp only [Bool.false_eq_true, and_false, if_false, Nat.add_zero]
      exact expired

theorem Keyed.count_released_le (keyed : correlator.Keyed) (call : CorrelatorCall)
    (device : Device) : (correlator.released call).count device ≤ correlator.pendingOn device := by
  have parts := keyed.pendingOn_step call device
  by_cases raises : correlator.raised call = []
  · rw [raises, count_nil] at parts
    omega
  · -- a call that raises a counter lowers only those of the requests that it expires
    cases call with
    | issue issue accessPattern =>
      have expired := correlator.pendingOn_expireBefore issue.tsNs device
      have free : ¬ ((correlator.expireBefore issue.tsNs).ambiguous.containsKey
          (RequestKey.issue issue) || (correlator.expireBefore issue.tsNs).pending.containsKey
            (RequestKey.issue issue)) = true := fun collision => raises (if_pos collision)
      have absent := (Bool.or_eq_false_iff.mp (Bool.eq_false_iff.mpr free)).2
      unfold released
      dsimp only
      rw [absent, if_neg Bool.false_ne_true, append_nil]
      omega
    | _ => exact absurd rfl raises

structure Counted (correlator : RequestCorrelator) : Prop where
  keyed : correlator.Keyed
  exact : ∀ device, depthIn correlator.devicePending device = correlator.pendingOn device

theorem Keyed.step (keyed : correlator.Keyed) (call : CorrelatorCall) :
    (correlator.step call).Keyed := by
  cases call with
  | insert insert => exact keyed.onInsert insert
  | issue issue accessPattern => exact keyed.onIssueClassified issue accessPattern
  | complete completion => exact keyed.onComplete completion

theorem Counted.step (counted : correlator.Counted) (call : CorrelatorCall) :
    (correlator.step call).Counted where
  keyed := counted.keyed.step call
  exact device := by
    have parts := counted.keyed.pendingOn_step call device
    have most := counted.keyed.count_released_le call device
    rw [depthIn_step, counted.exact]
    omega

theorem counted_run (ttlNs : U64) (ttlPositive : 0 < ttlNs) (history : List CorrelatorCall) :
    (run step (new ttlNs ttlPositive) history).Counted :=
  run_induction (fun _ correlator => Counted correlator)
    ⟨fun _ _ found => (by cases found), fun _ => rfl⟩ (fun _ call counted => counted.step call)
    history

/-! ### The depth at the issue -/

theorem depth_of_onIssueClassified {issue : BlockIssue} {accessPattern : AccessPattern}
    (found : (correlator.onIssueClassified issue accessPattern).1.pending.lookup
      (RequestKey.issue issue) = some request) :
    request.queueDepthAtIssue =
      (correlator.onIssueClassified issue accessPattern).1.pending.size := by
  unfold onIssueClassified at found ⊢
  dsimp only at found ⊢
  split at found
  · rw [Table.lookup_erase_eq, if_pos rfl] at found
    cases found
  · rename_i fresh
    rw [if_neg fresh]
    rw [Table.lookup_insert_eq, if_pos rfl] at found
    cases found
    exact (size_insert_erased _ _ _).symm

theorem pending_of_step {call : CorrelatorCall}
    (found : (correlator.step call).pending.lookup key = some request) :
    correlator.pending.lookup key = some request ∨
      ∃ accessPattern, call = .issue request.issue accessPattern ∧
        key = RequestKey.issue request.issue ∧
        request.queueDepthAtIssue = (correlator.step call).pending.size := by
  cases call with
  | insert insert =>
    rw [step, onInsert_pending] at found
    exact .inl (pending_of_expireBefore found)
  | issue issue accessPattern =>
    rcases pending_of_onIssueClassified found with ⟨rfl, rfl⟩ | ⟨-, older⟩
    · exact .inr ⟨accessPattern, rfl, rfl, depth_of_onIssueClassified found⟩
    · exact .inl older
  | complete completion =>
    exact .inl (pending_of_expireBefore (pending_of_onComplete found).1)

theorem depths_of_onComplete {completion : BlockComplete} {io : CompletedIo}
    (answered : (correlator.onComplete completion).2 = some io) :
    ∃ request, (correlator.expireBefore completion.tsNs).pending.lookup
        (RequestKey.complete completion) = some request ∧
      io.queueDepthAfter = some (correlator.onComplete completion).1.pending.size ∧
      io.queueDepthAtIssue = some request.queueDepthAtIssue ∧ io.issue = request.issue := by
  unfold onComplete at answered ⊢
  dsimp only at answered ⊢
  split at answered
  · cases answered
  · rename_i unmarked
    rw [if_neg unmarked]
    split at answered
    · cases answered
    · rename_i request found
      obtain ⟨latency, -, equal⟩ := Option.bind_eq_some_iff.mp answered
      cases equal
      exact ⟨request, found, rfl, rfl, rfl⟩

section Runs

variable (ttlNs : U64) (ttlPositive : 0 < ttlNs)

/-- The request was made pending by an issue of this history, has been pending since, and knows
how many requests were pending right after that issue. -/
def PendingSince (history : List CorrelatorCall) (key : RequestKey) (request : PendingRequest) :
    Prop :=
  ∃ before accessPattern after,
    history = before ++ .issue request.issue accessPattern :: after ∧
    (∀ middle rest, after = middle ++ rest →
      (run step (new ttlNs ttlPositive)
        (before ++ .issue request.issue accessPattern :: middle)).pending.lookup key =
          some request) ∧
    request.queueDepthAtIssue = (run step (new ttlNs ttlPositive)
      (before ++ [.issue request.issue accessPattern])).pending.size

theorem pendingSince_run (history : List CorrelatorCall) :
    ∀ key request, (run step (new ttlNs ttlPositive) history).pending.lookup key = some request →
      PendingSince ttlNs ttlPositive history key request := by
  refine run_induction (fun history (correlator : RequestCorrelator) => ∀ key request,
    correlator.pending.lookup key = some request →
      PendingSince ttlNs ttlPositive history key request)
    (fun key request found => by cases found) (fun history call since key request found => ?_)
    history
  have reached : (run step (new ttlNs ttlPositive) (history ++ [call])).pending.lookup key =
      some request := by
    rw [run_snoc]
    exact found
  rcases pending_of_step found with older | ⟨accessPattern, rfl, sameKey, depth⟩
  · obtain ⟨before, accessPattern, after, split, pending, depth⟩ := since key request older
    refine ⟨before, accessPattern, after ++ [call], append_eq_of_split split [call],
      fun middle rest parts => ?_, depth⟩
    rcases eq_nil_or_concat rest with rfl | ⟨others, last, rfl⟩
    · rw [append_nil] at parts
      rw [← parts, ← append_eq_of_split split [call]]
      exact reached
    · rw [concat_eq_append, ← append_assoc] at parts
      exact pending middle others (append_inj' parts rfl).1
  · refine ⟨history, accessPattern, [], rfl, fun middle rest parts => ?_, ?_⟩
    · rw [(append_eq_nil_iff.mp parts.symm).1]
      exact reached
    · rw [run_snoc]
      exact depth

/-- In every run, the counter of every device is the number of its pending requests. Every call
lowers a counter once for each request that it takes away, and never below zero, in whatever order
it visits the expired requests. -/
theorem depth_counters_are_exact (history : List CorrelatorCall) :
    let correlator := run step (new ttlNs ttlPositive) history
    (∀ device, depthIn correlator.devicePending device = correlator.pendingOn device) ∧
      (∀ call,
        (∀ device, depthIn (correlator.step call).devicePending device +
            (correlator.released call).count device =
          depthIn correlator.devicePending device + (correlator.raised call).count device) ∧
        ∀ order : List Device, order.Perm (correlator.released call) →
          order.foldlM releaseChecked correlator.devicePending =
            some (order.foldl release correlator.devicePending)) ∧
      ∀ completion io, (correlator.onComplete completion).2 = some io →
        io.queueDepthAfter = some (correlator.onComplete completion).1.pending.size ∧
        ∃ before accessPattern after request,
          history = before ++ .issue io.issue accessPattern :: after ∧
          (∀ middle rest, after = middle ++ rest →
            (run step (new ttlNs ttlPositive)
              (before ++ .issue io.issue accessPattern :: middle)).pending.lookup
                (RequestKey.complete completion) = some request) ∧
          io.queueDepthAtIssue = some (run step (new ttlNs ttlPositive)
            (before ++ [.issue io.issue accessPattern])).pending.size := by
  intro correlator
  have counted := counted_run ttlNs ttlPositive history
  refine ⟨counted.exact, fun call => ⟨fun device => ?_, fun order visits => ?_⟩,
    fun completion io answered => ?_⟩
  · rw [(counted.step call).exact, counted.exact]
    exact counted.keyed.pendingOn_step call device
  · refine foldlM_releaseChecked fun device => ?_
    rw [visits.count_eq, counted.exact]
    exact counted.keyed.count_released_le call device
  · obtain ⟨request, found, after, atIssue, sameIssue⟩ := depths_of_onComplete answered
    obtain ⟨before, accessPattern, rest, split, pending, depth⟩ :=
      pendingSince_run ttlNs ttlPositive history _ request (pending_of_expireBefore found)
    rw [sameIssue, atIssue, depth]
    exact ⟨after, before, accessPattern, rest, request, split, pending, rfl⟩

end Runs

theorem depth_counters_are_exact_reads :
    let correlator := run step (new 30 (by decide))
      [.issue (readIssue 1 7) .unknown, .issue (readIssue 2 8) .unknown]
    depthIn correlator.devicePending (8, 0) = 2 ∧
      ∃ io ∈ (correlator.onComplete (readComplete 3 7)).2,
        io.queueDepthAfter = some (correlator.onComplete (readComplete 3 7)).1.pending.size := by
  intro correlator
  obtain ⟨counters, -, answers⟩ := depth_counters_are_exact 30 (by decide)
    [.issue (readIssue 1 7) .unknown, .issue (readIssue 2 8) .unknown]
  obtain ⟨io, answered⟩ : ∃ io, (correlator.onComplete (readComplete 3 7)).2 = some io :=
    Option.isSome_iff_exists.mp (by decide +kernel)
  exact ⟨(counters _).trans (by decide +kernel), io, answered, (answers _ io answered).1⟩

end RequestCorrelator

end EbpfStudio

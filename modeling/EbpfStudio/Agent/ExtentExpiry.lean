/-
This file is about how long an extent counts as evidence.

Too old extents are dropped from the front of the queue only, up to the first that is young enough.
If the extents are in the order of their times (`InOrder`), dropping from the front drops all that
are too old. New reports keep this order, and so does a refresh, unless an extent behind the
refreshed one has an earlier time. Then an old extent stays behind a young one and still counts.
-/

import EbpfStudio.Agent.Extents

namespace EbpfStudio

open Expiry Run List

namespace F2fsExtentAttributor

def Input.time? : Input → Option U64
  | .extent event | .remap event => some event.tsNs
  | .fileIo _ => none
  | .issue asked => some asked.tsNs

def TimesOrdered (history : List Input) : Prop :=
  (history.filterMap Input.time?).Pairwise (· ≤ ·)

/-- If the report refreshes a stored extent, no extent behind it has an earlier time than the
report. -/
def RefreshesInOrder (attributor : F2fsExtentAttributor) : Input → Prop
  | .extent event => event.kind = kindFileExtent → event.sectors ≠ 0 →
      ∀ before extent after, attributor.extents = before ++ extent :: after →
        extent.sameAs event = true → (∀ later ∈ after, later.sameAs event = false) →
        extent.expired event.tsNs = false → ∀ later ∈ after, event.tsNs ≤ later.tsNs
  | _ => True

/-- The extents are in the order of their times, and these are times of the history. -/
structure InOrder (history : List Input) (extents : List F2fsExtentObservation) : Prop where
  sorted : extents.Pairwise fun first second => first.tsNs ≤ second.tsNs
  past : ∀ extent ∈ extents, extent.tsNs ∈ history.filterMap Input.time?

section InOrder

variable {history : List Input} {extents : List F2fsExtentObservation}

section

variable (inOrder : InOrder history extents)
include inOrder

theorem InOrder.later (input : Input) :
    InOrder (history ++ [input]) extents := by
  refine ⟨inOrder.sorted, fun extent member => ?_⟩
  rw [filterMap_append]
  exact mem_append_left _ (inOrder.past extent member)

theorem InOrder.sublist {fewer : List F2fsExtentObservation} (among : fewer.Sublist extents) :
    InOrder history fewer :=
  ⟨inOrder.sorted.sublist among, fun extent member => inOrder.past extent (among.subset member)⟩

theorem InOrder.oldFirst (nowNs : U64) :
    OldFirst (·.expired nowNs) extents := by
  refine inOrder.sorted.imp fun {first second} earlier expired => ?_
  have older : second.age nowNs ≤ first.age nowNs := Word.saturatingSub_anti nowNs earlier
  exact decide_eq_true ((of_decide_eq_true expired).trans_le older)

end

variable {input : Input} {time : U64}

theorem le_of_timesOrdered (timed : input.time? = some time)
    (ordered : TimesOrdered (history ++ [input])) {past : U64}
    (member : past ∈ history.filterMap Input.time?) : past ≤ time := by
  unfold TimesOrdered at ordered
  rw [filterMap_append, pairwise_append] at ordered
  refine ordered.2.2 past member time ?_
  rw [filterMap_cons_some timed]
  exact mem_cons_self

theorem InOrder.append (inOrder : InOrder history extents) (timed : input.time? = some time)
    (ordered : TimesOrdered (history ++ [input])) {more : List F2fsExtentObservation}
    (present : ∀ extent ∈ more, extent.tsNs = time) :
    InOrder (history ++ [input]) (extents ++ more) where
  sorted := by
    refine pairwise_append.mpr ⟨inOrder.sorted, ?_, fun first old second new => ?_⟩
    · refine pairwise_of_forall_mem_list fun first one second other => ?_
      rw [present first one, present second other]
    · rw [present second new]
      exact le_of_timesOrdered timed ordered (inOrder.past first old)
  past extent member := by
    rcases mem_append.mp member with old | new
    · exact (inOrder.later input).past extent old
    · rw [present extent new, filterMap_append, filterMap_cons_some timed]
      exact mem_concat_self

theorem InOrder.refresh {before after : List F2fsExtentObservation}
    {extent : F2fsExtentObservation} (inOrder : InOrder history (before ++ extent :: after))
    {event : ExtentEvent} (ordered : TimesOrdered (history ++ [.extent event]))
    (none_ : ∀ later ∈ after, event.tsNs ≤ later.tsNs) :
    InOrder (history ++ [.extent event]) (before ++ extent.refresh event :: after) where
  sorted := by
    obtain ⟨first, second, across⟩ := pairwise_append.mp inOrder.sorted
    refine pairwise_append.mpr ⟨first,
      pairwise_cons.mpr ⟨none_, (pairwise_cons.mp second).2⟩,
      fun earlier old other member => ?_⟩
    rcases mem_cons.mp member with rfl | later
    · exact le_of_timesOrdered rfl ordered (inOrder.past earlier (mem_append_left _ old))
    · exact across earlier old other (mem_cons_of_mem _ later)
  past other member := by
    rcases mem_append.mp member with old | rest
    · exact (inOrder.later _).past other (mem_append_left _ old)
    · rcases mem_cons.mp rest with rfl | later
      · rw [filterMap_append]
        exact mem_concat_self
      · exact (inOrder.later _).past other
          (mem_append_right _ (mem_cons_of_mem _ later))

end InOrder

section Steps

variable {history : List Input} {attributor : F2fsExtentAttributor}

section

variable (inOrder : InOrder history attributor.extents)
include inOrder

theorem InOrder.prune (nowNs : U64) :
    InOrder history (attributor.prune nowNs).extents :=
  inOrder.sublist (dropWhile_sublist _)

theorem InOrder.not_expired {nowNs : U64} {extent : F2fsExtentObservation}
    (left : extent ∈ (attributor.prune nowNs).extents) :
    extent.expired nowNs = false :=
  (inOrder.oldFirst nowNs).not_old left

theorem InOrder.observeRawExtent {event : ExtentEvent}
    (ordered : TimesOrdered (history ++ [.extent event]))
    (refreshes : attributor.RefreshesInOrder (.extent event)) :
    InOrder (history ++ [.extent event]) (attributor.observeRawExtent event).extents := by
  unfold F2fsExtentAttributor.observeRawExtent
  split
  · exact inOrder.later _
  rename_i proper
  simp only [Bool.or_eq_true, decide_eq_true_eq, not_or, not_not] at proper
  have pruned := inOrder.prune event.tsNs
  dsimp only
  split
  · rename_i refreshed found
    obtain ⟨before, extent, after, split, same, others, rfl⟩ := modifyLast?_eq_some found
    have young := inOrder.not_expired
      (split ▸ mem_append_right before mem_cons_self)
    rw [split] at pruned
    refine pruned.refresh ordered ?_
    -- What is dropped stands before what is refreshed.
    obtain ⟨dropped, whole⟩ := dropWhile_suffix (l := attributor.extents)
      (fun extent => extent.expired event.tsNs)
    refine refreshes proper.1 proper.2 (dropped ++ before) extent after ?_ same others young
    rw [append_assoc, ← split]
    exact whole.symm
  · refine (pruned.append rfl ordered fun extent member => ?_).sublist
      (pushBounded_sublist _ _ _)
    rw [mem_singleton.mp member]
    rfl

end

theorem translate_tsNs {event : ExtentEvent} {extent moved : F2fsExtentObservation}
    (translated : extent.translate event = some moved) : moved.tsNs = event.tsNs := by
  unfold F2fsExtentObservation.translate at translated
  rw [Option.ite_none_left_eq_some, Option.some.injEq] at translated
  rw [← translated.2]

theorem InOrder.observeBioRemap (inOrder : InOrder history attributor.extents)
    {event : ExtentEvent} (ordered : TimesOrdered (history ++ [.remap event])) :
    InOrder (history ++ [.remap event]) (attributor.observeBioRemap event).extents := by
  unfold F2fsExtentAttributor.observeBioRemap
  split
  · exact inOrder.later _
  · refine ((inOrder.prune event.tsNs).append rfl ordered fun moved member => ?_).sublist
      (foldl_pushBounded_sublist _ _ _)
    obtain ⟨extent, -, translated⟩ := mem_filterMap.mp member
    exact translate_tsNs translated

end Steps

theorem inOrder_run {history : List Input} (ordered : TimesOrdered history)
    (meets : StepsMeet (fun history input => (run step {} history).RefreshesInOrder input)
      history) :
    InOrder history (run step {} history).extents := by
  induction history using reverseRecOn with
  | nil => exact ⟨List.Pairwise.nil, fun extent member => nomatch member⟩
  | append_singleton history input hypothesis =>
    have earlier : TimesOrdered history :=
      ordered.sublist ((sublist_append_left history [input]).filterMap _)
    have inOrder := hypothesis earlier meets.of_append
    rw [run_snoc]
    cases input with
    | extent event => exact inOrder.observeRawExtent ordered meets.last
    | remap event => exact inOrder.observeBioRemap ordered
    | fileIo file =>
      show InOrder _ ((run step {} history).observeFileIo file).extents
      unfold observeFileIo
      split
      · exact inOrder.later _
      · exact inOrder.later _
    | issue issue => exact (inOrder.prune issue.tsNs).later _

/-- In every run with ordered times in which no extent is refreshed before an extent of an
earlier time, every origin of an issue stems from a stored extent that was last observed at
most five seconds before the issue. -/
theorem extent_evidence_expires (history : List Input) (issue : BlockIssue) (salt : U64)
    (ordered : TimesOrdered (history ++ [.issue issue]))
    (meets : StepsMeet (fun history input => (run step {} history).RefreshesInOrder input)
      history) :
    let attributor := run step {} history
    ∀ origin ∈ (attributor.originsForIssue issue salt).2, ∃ extent ∈ attributor.extents,
      origin = (attributor.prune issue.tsNs).originOf issue salt extent ∧
        extent.touches issue = true ∧ extent.age issue.tsNs ≤ 5_000_000_000 := by
  intro attributor origin member
  have inOrder := inOrder_run
    (ordered.sublist ((sublist_append_left history _).filterMap _)) meets
  obtain ⟨extent, touching, rfl⟩ :=
    mem_map.mp ((retainFirst_sublist RequestOrigin.file [] _).subset member)
  obtain ⟨left, touches⟩ := mem_filter.mp touching
  refine ⟨extent, (dropWhile_sublist _).subset left, rfl, touches, ?_⟩
  exact Nat.not_lt.mp (of_decide_eq_false (inOrder.not_expired left))

/-- The only stored extent is refreshed and serves a request four seconds later. -/
theorem refreshed_extent_is_evidence :
    let history :=
      [Input.extent (readExtent 1 2048 42), .extent (readExtent 3_000_000_000 2048 42)]
    let issue := readIssue 7_000_000_000 1
    let attributor := run step {} history
    (attributor.originsForIssue issue 0).2.length = 1 ∧
      ∀ origin ∈ (attributor.originsForIssue issue 0).2, ∃ extent ∈ attributor.extents,
        origin = (attributor.prune issue.tsNs).originOf issue 0 extent ∧
          extent.touches issue = true ∧ extent.age issue.tsNs ≤ 5_000_000_000 := by
  intro history issue attributor
  refine ⟨by decide +kernel, extent_evidence_expires history issue 0 ?_ ?_⟩
  · unfold TimesOrdered
    decide +kernel
  · refine StepsMeet.snoc (StepsMeet.snoc (stepsMeet_nil _) ?_) ?_
    · intro _ _ before extent after none_
      cases before <;> cases none_
    · intro _ _ before extent after single _ _ _ later member
      have alone : ([] : List F2fsExtentObservation) = after :=
        (append_eq_singleton_iff.mp single.symm).elim
          (fun found => (cons.inj found.2).2.symm) fun found => nomatch found.2
      rw [← alone] at member
      cases member

/-- A report refreshes the extent in front of one that is four seconds old at that time. At the
request this other extent is almost six seconds old, and the only origin stems from it. -/
theorem stale_extent_is_evidence :
    let history :=
      [Input.extent (readExtent 1 0 41), .extent (readExtent 2 2048 42),
        .extent (readExtent 4_000_000_000 0 41)]
    let issue := readIssue 6_000_000_000 1
    let attributor := run step {} history
    TimesOrdered (history ++ [.issue issue]) ∧
      ∃ origin ∈ (attributor.originsForIssue issue 0).2, ∀ extent ∈ attributor.extents,
        origin = (attributor.prune issue.tsNs).originOf issue 0 extent →
          5_000_000_000 < extent.age issue.tsNs := by
  intro history issue attributor
  refine ⟨?_, by decide +kernel⟩
  unfold TimesOrdered
  decide +kernel

end F2fsExtentAttributor

end EbpfStudio
